import SoftConfirm.Crypto.Ecdsa
import SoftConfirm.Proofs.CommandLine.Environment
import SoftConfirm.Proofs.Trimming

namespace SoftConfirm

namespace Text

variable {cs : List Char} {text : String}

-- Whether something stands in a piece between commas.
def Filled (piece : List Char) : Prop := ∃ c ∈ piece, isBlank c = false

instance (piece : List Char) : Decidable (Filled piece) :=
  inferInstanceAs (Decidable (∃ c ∈ piece, isBlank c = false))

theorem filled_iff : Filled cs ↔ trimChars cs ≠ [] := by
  rw [Ne, trimChars_eq_nil_iff]
  simp [Filled]

-- Leaving out blank pieces first and then trimming the others comes to the same list.
theorem commaList_eq (text : String) :
    commaList text =
      ((text.toList.splitOn ',').filter (Filled ·)).map fun piece =>
        String.ofList (trimChars piece) := by
  have hblank : ((!·.isEmpty) ∘ trimChars) = fun piece => decide (Filled piece) := by
    funext piece
    rw [Bool.eq_iff_iff]
    simp [filled_iff]
  rw [commaList, pieces, List.filter_map, hblank, List.map_map]
  rfl

end Text

namespace KeySource

variable {setting inline paths : Option String} {s : Settings}

-- Whether a setting has an entry that is not blank.
def Live (setting : Option String) : Prop :=
  ∃ text, setting = some text ∧ ∃ piece ∈ text.toList.splitOn ',', Text.Filled piece

-- The entries of a list setting: what stands between its commas and is not blank, in its order
-- and without the blanks around it.
def named (text : String) : List String :=
  ((text.toList.splitOn ',').filter (Text.Filled ·)).map fun piece =>
    String.ofList (Text.trimChars piece)

-- The source of two settings of which one is live, or both.
inductive Picks (inline paths : Option String) : Except ConfigError KeySource → Prop where
  | conflict (hinline : Live inline) (hpaths : Live paths) :
      Picks inline paths (.error .conflictingKeySources)
  | inline {text : String} (htext : inline = some text) (hinline : Live inline)
      (hpaths : ¬ Live paths) : Picks inline paths (.ok (.inline (named text)))
  | files {text : String} (htext : paths = some text) (hinline : ¬ Live inline)
      (hpaths : Live paths) : Picks inline paths (.ok (.files (named text)))

-- The source of four settings. Those for single keys are looked at only if neither list is live.
inductive Selects (s : Settings) : Except ConfigError KeySource → Prop where
  | lists {result : Except ConfigError KeySource} (hlists : Picks s.inlineList s.pathList result) :
      Selects s result
  | singles {result : Except ConfigError KeySource} (hinline : ¬ Live s.inlineList)
      (hpaths : ¬ Live s.pathList) (hsingles : Picks s.inlineSingle s.pathSingle result) :
      Selects s result
  | missing (hinline : ¬ Live s.inlineList) (hpaths : ¬ Live s.pathList)
      (hinlineSingle : ¬ Live s.inlineSingle) (hpathSingle : ¬ Live s.pathSingle) :
      Selects s (.error .missingKeyMaterial)

theorem commaList_ne_nil_iff {text : String} :
    Text.commaList text ≠ [] ↔ ∃ piece ∈ text.toList.splitOn ',', Text.Filled piece := by
  rw [Text.commaList_eq, Ne, List.map_eq_nil_iff, List.filter_eq_nil_iff]
  simp

theorem entries?_eq_some {text : String} (htext : setting = some text) (h : Live setting) :
    entries? setting = some (named text) := by
  obtain ⟨other, hother, hfilled⟩ := h
  obtain rfl := Option.some.inj (hother.symm.trans htext)
  have hne := commaList_ne_nil_iff.mpr hfilled
  rw [hother, entries?, Option.map_some, Option.filter_some, if_pos (by simpa using hne),
    Text.commaList_eq, named]

theorem entries?_eq_none (h : ¬ Live setting) : entries? setting = none := by
  cases setting with
  | none => rfl
  | some text =>
      have hnil : Text.commaList text = [] := by
        by_contra hne
        exact h ⟨text, rfl, commaList_ne_nil_iff.mp hne⟩
      rw [entries?, Option.map_some, hnil]
      rfl

theorem Picks.ofLists_eq {result : Except ConfigError KeySource} (h : Picks inline paths result) :
    ofLists inline paths = result := by
  cases h with
  | conflict hinline hpaths =>
      obtain ⟨secrets, hsecrets, -⟩ := id hinline
      obtain ⟨files, hfiles, -⟩ := id hpaths
      rw [ofLists, entries?_eq_some hsecrets hinline, entries?_eq_some hfiles hpaths]
  | inline htext hinline hpaths =>
      rw [ofLists, entries?_eq_some htext hinline, entries?_eq_none hpaths]
  | files htext hinline hpaths =>
      rw [ofLists, entries?_eq_none hinline, entries?_eq_some htext hpaths]

theorem Picks.ne_missing (h : Picks inline paths (.error .missingKeyMaterial)) : False := by
  cases h

theorem exists_picks (h : Live inline ∨ Live paths) : ∃ result, Picks inline paths result := by
  by_cases hinline : Live inline
  · by_cases hpaths : Live paths
    · exact ⟨_, .conflict hinline hpaths⟩
    · obtain ⟨text, htext, -⟩ := id hinline
      exact ⟨_, .inline htext hinline hpaths⟩
  · have hpaths := h.resolve_left hinline
    obtain ⟨text, htext, -⟩ := id hpaths
    exact ⟨_, .files htext hinline hpaths⟩

theorem ofLists_of_not_live (hinline : ¬ Live inline) (hpaths : ¬ Live paths) :
    ofLists inline paths = .error .missingKeyMaterial := by
  rw [ofLists, entries?_eq_none hinline, entries?_eq_none hpaths]

-- The settings for single keys stand in for lists that are missing.
theorem ofSettings_of_not_live (hinline : ¬ Live s.inlineList) (hpaths : ¬ Live s.pathList) :
    ofSettings s = ofLists s.inlineSingle s.pathSingle := by
  rw [ofSettings, ofLists_of_not_live hinline hpaths]

theorem Selects.ofSettings_eq {result : Except ConfigError KeySource} (h : Selects s result) :
    ofSettings s = result := by
  cases h with
  | lists hlists =>
      rw [ofSettings, hlists.ofLists_eq]
      split
      · exact hlists.ne_missing.elim
      · rfl
  | singles hinline hpaths hsingles =>
      rw [ofSettings_of_not_live hinline hpaths, hsingles.ofLists_eq]
  | missing hinline hpaths hinlineSingle hpathSingle =>
      rw [ofSettings_of_not_live hinline hpaths, ofLists_of_not_live hinlineSingle hpathSingle]

theorem exists_selects (s : Settings) : ∃ result, Selects s result := by
  by_cases hlists : Live s.inlineList ∨ Live s.pathList
  · obtain ⟨result, hresult⟩ := exists_picks hlists
    exact ⟨result, .lists hresult⟩
  · obtain ⟨hinline, hpaths⟩ := not_or.mp hlists
    by_cases hsingles : Live s.inlineSingle ∨ Live s.pathSingle
    · obtain ⟨result, hresult⟩ := exists_picks hsingles
      exact ⟨result, .singles hinline hpaths hresult⟩
    · obtain ⟨hinlineSingle, hpathSingle⟩ := not_or.mp hsingles
      exact ⟨_, .missing hinline hpaths hinlineSingle hpathSingle⟩

theorem ofSettings_eq_iff {result : Except ConfigError KeySource} :
    ofSettings s = result ↔ Selects s result := by
  refine ⟨fun h => ?_, Selects.ofSettings_eq⟩
  obtain ⟨other, hother⟩ := exists_selects s
  rwa [← h, hother.ofSettings_eq]

end KeySource

section

variable [SignatureScheme]

-- What settings about signers come to: what is wrong with their source, then what is wrong with
-- their threshold, and then whatever the source loads.
inductive SignerSettings.ComesTo (fs : FileSystem) (s : SignerSettings) :
    Except ConfigError SignerSet → Prop where
  | badSource {e : ConfigError} (hsource : KeySource.Selects s.sources (.error e)) :
      s.ComesTo fs (.error e)
  | badThreshold {source : KeySource} {e : ConfigError}
      (hsource : KeySource.Selects s.sources (.ok source))
      (hthreshold : Settings.threshold s.threshold = .error e) : s.ComesTo fs (.error e)
  | loaded {source : KeySource} {given : Option UInt32}
      (hsource : KeySource.Selects s.sources (.ok source))
      (hthreshold : Settings.threshold s.threshold = .ok given) :
      s.ComesTo fs (source.loadSigners fs given)

theorem SignerSettings.load_eq_iff {fs : FileSystem} {s : SignerSettings}
    {result : Except ConfigError SignerSet} : s.load fs = result ↔ s.ComesTo fs result := by
  constructor
  · rintro rfl
    unfold load
    cases hsource : KeySource.ofSettings s.sources with
    | error e => exact .badSource (KeySource.ofSettings_eq_iff.mp hsource)
    | ok source =>
        have hselects := KeySource.ofSettings_eq_iff.mp hsource
        cases hthreshold : Settings.threshold s.threshold with
        | error e => exact .badThreshold hselects hthreshold
        | ok given => exact .loaded hselects hthreshold
  · intro h
    cases h with
    | badSource hsource =>
        rw [load, hsource.ofSettings_eq]
        rfl
    | badThreshold hsource hthreshold =>
        rw [load, hsource.ofSettings_eq]
        simp only [bind, Except.bind, hthreshold]
    | loaded hsource hthreshold =>
        rw [load, hsource.ofSettings_eq]
        simp only [bind, Except.bind, hthreshold]

-- Four settings name at most one source, the lists before the single keys, and a node that is
-- started without options has the signers, or the same fault, that its environment comes to.
theorem KeySource.selected_and_loaded_alike :
    (∀ (s : KeySource.Settings) result, ofSettings s = result ↔ Selects s result) ∧
      ∀ environment command,
        CommandLine.Command.ofArguments environment ["run"] = .ok command →
          ∃ settings, command = .run settings ∧
            ∀ fs, settings.signers.load fs = (SignerSettings.ofEnvironment environment).load fs ∧
              ∀ result, settings.signers.load fs = result ↔
                (SignerSettings.ofEnvironment environment).ComesTo fs result := by
  refine ⟨fun s result => ofSettings_eq_iff, fun environment command h => ?_⟩
  obtain ⟨settings, hcommand, hsigners⟩ := CommandLine.exists_run_of_ofArguments h
  refine ⟨settings, hcommand, fun fs => ?_⟩
  rw [hsigners]
  exact ⟨rfl, fun result => SignerSettings.load_eq_iff⟩

end

-- A list of nothing but blanks and commas gives way to a single key. An empty threshold is none.
theorem KeySource.selected_and_loaded_alike_single :
    let environment : String → Option String := fun name =>
      if name = SignerSettings.inlineListVariable then some " ,, "
      else if name = SignerSettings.inlineSingleVariable then some " 0xaa ,"
      else if name = SignerSettings.thresholdVariable then some ""
      else none
    Selects (SignerSettings.ofEnvironment environment).sources (.ok (.inline ["0xaa"])) ∧
      ∃ settings, CommandLine.Command.ofArguments environment ["run"] = .ok (.run settings) ∧
        settings.signers.load .empty = .error (.key 0 (.badKey (.wrongLength 1))) ∧
        (SignerSettings.ofEnvironment environment).ComesTo .empty
          (.error (.key 0 (.badKey (.wrongLength 1)))) := by
  intro environment
  have hselected : ofSettings (SignerSettings.ofEnvironment environment).sources =
      .ok (.inline ["0xaa"]) := by decide +kernel
  have hparses : (CommandLine.Command.ofArguments environment ["run"]).isOk = true := by
    decide +kernel
  cases hcommand : CommandLine.Command.ofArguments environment ["run"] with
  | error refusal =>
      rw [hcommand] at hparses
      cases hparses
  | ok command =>
      obtain ⟨hselects, hruns⟩ := selected_and_loaded_alike
      obtain ⟨settings, rfl, hloads⟩ := hruns environment command hcommand
      obtain ⟨hsame, hcomes⟩ := hloads .empty
      have hthreshold : Settings.threshold (SignerSettings.ofEnvironment environment).threshold =
          .ok none := by decide +kernel
      have hkeys : (KeySource.inline ["0xaa"]).loadKeys .empty =
          .error (.key 0 (.badKey (.wrongLength 1))) := by decide +kernel
      have hfault : (SignerSettings.ofEnvironment environment).load .empty =
          .error (.key 0 (.badKey (.wrongLength 1))) := by
        simp only [SignerSettings.load, hselected, bind, Except.bind, hthreshold, loadSigners,
          hkeys]
      exact ⟨(hselects _ _).mp hselected, settings, rfl, hsame.trans hfault,
        (hcomes _).mp (hsame.trans hfault)⟩

end SoftConfirm

import SoftConfirm.CommandLine
import SoftConfirm.Proofs.Json.Reading

namespace SoftConfirm.CommandLine

section

variable {δ α β : Type} {flag : Flag δ} {flags before after : List (Flag δ)}
  {environment : String → Option String} {draft done : δ} {part : δ → α}

-- An option that leaves a part of the draft as it is, whatever its value.
def Flag.Keeps (flag : Flag δ) (part : δ → α) : Prop :=
  ∀ text draft after, flag.give text draft = .ok after → part after = part draft

theorem Flag.keeps_of_read {read : String → δ → Except Refusal δ}
    (heffect : flag.effect = .value read)
    (hread : ∀ text draft after, read text draft = .ok after → part after = part draft) :
    flag.Keeps part := by
  intro text draft after h
  unfold Flag.give at h
  split at h
  · exact absurd h nofun
  · rw [heffect] at h
    exact hread text draft after h

-- Options that store their text as it is, and options that read it first.
theorem Flag.keeps_of_store {put : String → δ → δ}
    (heffect : flag.effect = .value fun text draft => .ok (put text draft))
    (hput : ∀ text draft, part (put text draft) = part draft) : flag.Keeps part := by
  apply keeps_of_read heffect
  intro text draft after h
  obtain rfl := Except.ok.inj h
  exact hput text draft

theorem Flag.keeps_of_parse {parse : String → Except Refusal β} {put : β → δ → δ}
    (heffect : flag.effect = .value fun text draft => return put (← parse text) draft)
    (hput : ∀ value draft, part (put value draft) = part draft) : flag.Keeps part := by
  apply keeps_of_read heffect
  intro text draft after h
  obtain ⟨value, -, h⟩ := exists_of_bind_eq_ok h
  obtain rfl := Except.ok.inj h
  exact hput value draft

theorem fill_append (draft : δ) :
    fill (before ++ after) environment draft =
      fill before environment draft >>= fill after environment :=
  List.foldlM_append

theorem fill_keeps (hkeeps : ∀ flag ∈ flags, flag.Keeps part)
    (h : fill flags environment draft = .ok done) : part done = part draft := by
  induction flags generalizing draft with
  | nil =>
      obtain rfl := Except.ok.inj h
      rfl
  | cons flag flags ih =>
      have hrest := fun other hother => hkeeps other (List.mem_cons_of_mem flag hother)
      rw [fill, List.foldlM_cons] at h
      obtain ⟨next, hnext, h⟩ := exists_of_bind_eq_ok h
      rw [ih hrest h]
      split at hnext
      · obtain rfl := Except.ok.inj hnext
        rfl
      · split at hnext
        · obtain rfl := Except.ok.inj hnext
          rfl
        · exact hkeeps flag List.mem_cons_self _ _ _ hnext

-- An open option that stores its text takes what its variable has, empty or not.
theorem fill_cons_of_store (column : δ → Option String) (put : Option String → δ → δ)
    (hset : flag.isSet draft = (column draft).isSome)
    (heffect : flag.effect = .value fun text draft => .ok (put (some text) draft))
    (hput : put (column draft) draft = draft) (hopen : column draft = none) :
    fill (flag :: flags) environment draft =
      fill flags environment (put (flag.fallback.bind environment) draft) := by
  have hunset : ¬ flag.isSet draft = true := by simp [hset, hopen]
  rw [hopen] at hput
  rw [fill, List.foldlM_cons, if_neg hunset]
  cases hvalue : flag.fallback.bind environment with
  | none =>
      rw [hput]
      rfl
  | some text =>
      simp only [Flag.give, if_neg hunset, heffect]
      rfl

end

namespace RunDraft

-- The settings about signers in a draft.
def signers (d : RunDraft) : SignerSettings := d.complete.signers

-- The options before those of the signers and after them have nothing to do with signers.
theorem keeps_signers : ∀ flag ∈ flags.take 5 ++ flags.drop 10, flag.Keeps signers := by
  simp only [flags, List.take_succ_cons, List.take_zero, List.drop_succ_cons, List.drop_zero,
    List.cons_append, List.nil_append, List.forall_mem_cons]
  refine ⟨Flag.keeps_of_store rfl fun _ _ => rfl, Flag.keeps_of_parse rfl fun _ _ => rfl,
    Flag.keeps_of_parse rfl fun _ _ => rfl, Flag.keeps_of_parse rfl fun _ _ => rfl,
    Flag.keeps_of_parse rfl fun _ _ => rfl, Flag.keeps_of_store rfl fun _ _ => rfl,
    Flag.keeps_of_parse rfl fun _ _ => rfl, Flag.keeps_of_parse rfl fun _ _ => rfl, nofun⟩

-- The options of the signers take what their variables have.
theorem fill_signers (environment : String → Option String) {d : RunDraft}
    (hblank : d.signers = ⟨⟨none, none, none, none⟩, none⟩) :
    ∃ done, fill ((flags.drop 5).take 5) environment d = .ok done ∧
      done.signers = SignerSettings.ofEnvironment environment := by
  have hinlineList : d.inlineList = none := congrArg (·.sources.inlineList) hblank
  have hpathList : d.pathList = none := congrArg (·.sources.pathList) hblank
  have hinlineSingle : d.inlineSingle = none := congrArg (·.sources.inlineSingle) hblank
  have hpathSingle : d.pathSingle = none := congrArg (·.sources.pathSingle) hblank
  have hthreshold : d.threshold = none := congrArg (·.threshold) hblank
  refine ⟨{ d with
    inlineList := environment SignerSettings.inlineListVariable
    pathList := environment SignerSettings.pathListVariable
    inlineSingle := environment SignerSettings.inlineSingleVariable
    pathSingle := environment SignerSettings.pathSingleVariable
    threshold := environment SignerSettings.thresholdVariable }, ?_, rfl⟩
  apply Eq.trans (fill_cons_of_store (·.inlineList)
    (fun text d => { d with inlineList := text }) rfl rfl rfl hinlineList)
  apply Eq.trans (fill_cons_of_store (·.pathList)
    (fun text d => { d with pathList := text }) rfl rfl rfl hpathList)
  apply Eq.trans (fill_cons_of_store (·.inlineSingle)
    (fun text d => { d with inlineSingle := text }) rfl rfl rfl hinlineSingle)
  apply Eq.trans (fill_cons_of_store (·.pathSingle)
    (fun text d => { d with pathSingle := text }) rfl rfl rfl hpathSingle)
  apply Eq.trans (fill_cons_of_store (·.threshold)
    (fun text d => { d with threshold := text }) rfl rfl rfl hthreshold)
  rfl

-- A draft that has been filled without arguments has the environment's settings about signers.
theorem signers_of_readAll {program : String} {environment : String → Option String}
    {d : RunDraft} (h : readAll flags program environment {} [] = .ok d) :
    d.signers = SignerSettings.ofEnvironment environment := by
  have hsplit : flags = flags.take 5 ++ ((flags.drop 5).take 5 ++ flags.drop 10) := rfl
  have hfill : fill flags environment {} = .ok d := h
  rw [hsplit, fill_append] at hfill
  obtain ⟨first, hfirst, hfill⟩ := exists_of_bind_eq_ok hfill
  rw [fill_append] at hfill
  obtain ⟨second, hsecond, hlast⟩ := exists_of_bind_eq_ok hfill
  have hblank : first.signers = ⟨⟨none, none, none, none⟩, none⟩ :=
    fill_keeps (fun flag hflag => keeps_signers flag (List.mem_append_left _ hflag)) hfirst
  obtain ⟨filled, hfilled, hsigners⟩ := fill_signers environment hblank
  obtain rfl := Except.ok.inj (hfilled.symm.trans hsecond)
  rw [← hsigners]
  exact fill_keeps (fun flag hflag => keeps_signers flag (List.mem_append_right _ hflag)) hlast

end RunDraft

-- Without options the settings about signers are those of the environment.
theorem exists_run_of_ofArguments {environment : String → Option String} {command : Command}
    (h : Command.ofArguments environment ["run"] = .ok command) :
    ∃ settings, command = .run settings ∧
      settings.signers = SignerSettings.ofEnvironment environment := by
  obtain ⟨draft, hdraft, h⟩ := exists_of_bind_eq_ok h
  obtain rfl := Except.ok.inj h
  exact ⟨draft.complete, rfl, RunDraft.signers_of_readAll hdraft⟩

end SoftConfirm.CommandLine

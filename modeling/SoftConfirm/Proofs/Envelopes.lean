import SoftConfirm.Node.Service
import SoftConfirm.Proofs.Gateways
import SoftConfirm.Proofs.Json.Members

namespace SoftConfirm

namespace Json

variable {depth : Nat} {value : Json}

-- A value that can be read back from its text where so much nesting is left.
structure Embeds (depth : Nat) (value : Json) : Prop where
  legible : value.Legible
  fits : value.Fits depth

namespace Embeds

theorem text (depth : Nat) (s : String) : (Json.text s).Embeds depth := ⟨.text s, .text depth s⟩

theorem object {members : List (String × Json)} (h : ∀ m ∈ members, m.2.Embeds depth) :
    (Json.object members).Embeds (depth + 1) :=
  ⟨.object fun m hm => (h m hm).legible, .object fun m hm => (h m hm).fits⟩

theorem array {items : List Json} (h : ∀ item ∈ items, item.Embeds depth) :
    (Json.array items).Embeds (depth + 1) :=
  ⟨.array fun item hitem => (h item hitem).legible, .array fun item hitem => (h item hitem).fits⟩

theorem integer {number : Int} (depth : Nat) (low : -2 ^ 63 ≤ number) (high : number < 2 ^ 64) :
    (Json.number (.integer number)).Embeds depth :=
  ⟨.integer low high, .number depth _⟩

theorem canonical (h : value.Embeds depth) : value.canonical.Embeds depth :=
  ⟨h.legible.canonical, h.fits.canonical⟩

end Embeds

end Json

open Json (Embeds lookup_canonical sortMembers)

theorem Receipt.embeds_toJson (r : Receipt) (depth : Nat) : r.toJson.Embeds (depth + 2) :=
  ⟨r.legible_toJson, r.fits_toJson depth⟩

theorem Api.embeds_signersBody (active : Option SignerSet) (depth : Nat) :
    (signersBody active).Embeds (depth + 2) := by
  have hthreshold : ∀ threshold : Nat, threshold < 2 ^ 32 →
      (Json.number (.integer threshold)).Embeds (depth + 1) :=
    fun threshold h => .integer _ (by omega) (by omega)
  refine .object fun m hm => ?_
  simp only [List.mem_cons, List.not_mem_nil, or_false] at hm
  rcases hm with rfl | rfl | rfl
  · exact ⟨.bool _, .bool _ _⟩
  · cases active with
    | none => exact hthreshold 0 (by decide)
    | some set => exact hthreshold set.threshold.toNat set.threshold.toNat_lt
  · refine .array fun item hitem => ?_
    obtain ⟨address, -, rfl⟩ := List.mem_map.mp hitem
    exact .text _ _

namespace Rpc

theorem Error.embeds_toJson {code : Int} {message : String} {kind : Option FailureKind}
    (depth : Nat) (low : -2 ^ 63 ≤ code) (high : code < 2 ^ 64) :
    (Error.mk code message kind).toJson.Embeds (depth + 2) := by
  refine .object fun m hm => ?_
  rcases List.mem_append.mp hm with hm | hm
  · simp only [List.mem_cons, List.not_mem_nil, or_false] at hm
    rcases hm with rfl | rfl
    · exact .integer _ low high
    · exact .text _ _
  · cases kind with
    | none => cases hm
    | some kind =>
        obtain rfl := List.mem_singleton.mp hm
        refine .object fun m hm => ?_
        obtain rfl := List.mem_singleton.mp hm
        exact .text _ _

theorem Error.embeds_ofIssue (e : IssueError) (depth : Nat) :
    (ofIssue e).toJson.Embeds (depth + 2) := by
  have hcode : ∀ kind, -2 ^ 63 ≤ codeOf kind ∧ codeOf kind < 2 ^ 64 := by
    intro kind
    cases kind <;> decide
  exact embeds_toJson depth (hcode e.kind).1 (hcode e.kind).2

-- The member of a response that says what has come of its call.
def outcomeMember : Except Error Json → String × Json
  | .ok result => ("result", result)
  | .error e => ("error", e.toJson)

theorem respond_eq (id : Json) (outcome : Except Error Json) :
    respond id outcome = .object [("jsonrpc", .text "2.0"), outcomeMember outcome, ("id", id)] := by
  cases outcome <;> rfl

-- What a client reads in a response to a call: a result or an error, but not both, beside the
-- identifier of the call.
structure Answers (id : Json) (response : Http.Response) : Prop where
  status : response.status = 200
  body : ∃ members, Json.ofText response.body.render = .ok (.object members) ∧
    members.lookup "jsonrpc" = some (.text "2.0") ∧ members.lookup "id" = some id ∧
    (members.lookup "result").isSome = !(members.lookup "error").isSome

-- A response that puts a result or an error into an envelope, one that can be read back.
def Encloses (id : Json) (response : Http.Response) : Prop :=
  ∃ outcome, (outcomeMember outcome).2.Embeds 126 ∧ response = .json 200 (respond id outcome)

theorem answers_respond {id : Json} {outcome : Except Error Json} (hid : id.Embeds 126)
    (hcanonical : id.canonical = id) (houtcome : (outcomeMember outcome).2.Embeds 126) :
    Answers id (.json 200 (respond id outcome)) := by
  have hembeds : (respond id outcome).Embeds 127 := by
    rw [respond_eq]
    refine .object fun m hm => ?_
    simp only [List.mem_cons, List.not_mem_nil, or_false] at hm
    rcases hm with rfl | rfl | rfl
    · exact .text _ _
    · exact houtcome
    · exact hid
  have hread := hembeds.fits.ofText_render hembeds.legible
  have hlookup : ∀ name, (sortMembers ([("jsonrpc", Json.text "2.0"), outcomeMember outcome,
      ("id", id)].map fun m => (m.1, m.2.canonical))).lookup name =
        ([("jsonrpc", Json.text "2.0"), outcomeMember outcome, ("id", id)].lookup name).map
          Json.canonical := by
    intro name
    refine lookup_canonical (List.nodup_iff_count_le_one.mp ?_ name)
    cases outcome <;> simp [outcomeMember]
  rw [respond_eq, Json.canonical_object, ← respond_eq] at hread
  refine ⟨rfl, _, hread, ?_, ?_, ?_⟩
  · rw [hlookup]
    simp
  · rw [hlookup]
    cases outcome <;> simp [outcomeMember, List.lookup_cons, hcanonical]
  · rw [hlookup, hlookup]
    cases outcome <;> simp [outcomeMember, List.lookup_cons]

-- The identifier of a call that has been read is nested no deeper than it may be one level inside
-- of the call, and its members are sorted.
theorem Request.fits_of_ofBytes {body : Bytes} {call : Request}
    (h : Request.ofBytes body = .ok call) : call.id.Fits 126 ∧ call.id.canonical = call.id := by
  have hfields : ∀ field ∈ shape.fields, ∀ term draft next,
      (∀ id, draft.id = some id → id.Fits 126 ∧ id.canonical = id) →
        field.read 126 term draft = .ok next →
          ∀ id, next.id = some id → id.Fits 126 ∧ id.canonical = id := by
    intro field hfield term draft next hdraft hnext
    simp only [shape, List.mem_cons, List.not_mem_nil, or_false] at hfield
    rcases hfield with rfl | rfl | rfl | rfl
    · obtain ⟨version, -, hnext⟩ := exists_of_bind_eq_ok hnext
      exact Except.ok.inj hnext ▸ hdraft
    · obtain ⟨method, -, hnext⟩ := exists_of_bind_eq_ok hnext
      exact Except.ok.inj hnext ▸ hdraft
    · obtain ⟨params, -, hnext⟩ := exists_of_bind_eq_ok hnext
      exact Except.ok.inj hnext ▸ hdraft
    · obtain ⟨read, hread, hnext⟩ := exists_of_bind_eq_ok hnext
      obtain rfl := Except.ok.inj hnext
      intro id hid
      obtain rfl := Option.some.inj hid
      exact Json.Term.fits_of_readJson hread
  obtain ⟨draft, hdraft, hfinish⟩ := Json.Shape.exists_kept_of_read hfields nofun h
  obtain ⟨version, -, hfinish⟩ := exists_of_bind_eq_ok hfinish
  obtain ⟨method, -, hfinish⟩ := exists_of_bind_eq_ok hfinish
  obtain ⟨id, hid, hfinish⟩ := exists_of_bind_eq_ok hfinish
  obtain rfl := Except.ok.inj hfinish
  exact hdraft id (Json.need_eq_ok_iff.mp hid)

-- The text of a call without parameters is read as this call, whatever its identifier holds.
theorem Request.ofBytes_render (version method : String) {id : Json} (hid : id.Embeds 126) :
    Request.ofBytes (Text.utf8
        (Json.object [("id", id), ("jsonrpc", .text version), ("method", .text method)]).render) =
      .ok ⟨version, method, none, id.canonical⟩ := by
  have hembeds : (Json.object [("id", id), ("jsonrpc", .text version),
      ("method", .text method)]).Embeds 127 := by
    refine .object fun m hm => ?_
    simp only [List.mem_cons, List.not_mem_nil, or_false] at hm
    rcases hm with rfl | rfl | rfl
    · exact hid
    · exact .text _ _
    · exact .text _ _
  have hmember : shape.readMember 126 .closed shape.blank (.text (some "id"), id.toTerm) =
      .ok { id := some id.canonical } := by
    change (id.toTerm.readJson 126 >>= fun held => Except.ok _) = _
    rw [hid.fits.readJson]
    rfl
  rw [Request.ofBytes, hembeds.legible.ofBytes_render]
  simp only [Json.toTerm, List.map_cons, List.map_nil]
  rw [Json.nestingLimit, Json.Shape.read_object_closed, List.foldlM_cons, hmember]
  rfl

-- A byte that no character has is passed over with a member that nobody asks for.
example :
    let body (name : String) := Text.utf8 "\x7b\"jsonrpc\":\"2.0\",\"method\":\"\",\"" ++
      Text.utf8 name ++ Text.utf8 "\":\"" ++ [0xff] ++ Text.utf8 "\",\"id\":1\x7d"
    (Request.ofBytes (body "note")).map (·.version) = .ok "2.0" ∧
      (Request.ofBytes (body "params")).map (·.version) = .error .malformed := by
  decide +kernel

end Rpc

-- An action whose response is an envelope with this identifier, whatever an attempt comes to.
def Action.Encloses (id : Json) : Action → Prop
  | .reply response | .submit _ response => Rpc.Encloses id response
  | .attest _ render => ∀ outcome, Rpc.Encloses id (render outcome)

namespace Api

theorem encloses_call (n : Node) (call : Rpc.Request) : (Api.call n call).Encloses call.id := by
  have hbad (reason : String) : (Rpc.Error.badParams reason).toJson.Embeds 126 :=
    Rpc.Error.embeds_toJson 124 (by decide) (by decide)
  unfold Api.call
  split
  · exact ⟨.error .badVersion, Rpc.Error.embeds_toJson 124 (by decide) (by decide), rfl⟩
  · split
    · split
      · exact ⟨.error _, hbad _, rfl⟩
      · split
        · exact ⟨.error _, hbad _, rfl⟩
        · rintro (e | r)
          · exact ⟨.error (Rpc.Error.ofIssue e), Rpc.Error.embeds_ofIssue e 124, rfl⟩
          · exact ⟨.ok r.toJson.canonical, (r.embeds_toJson 124).canonical, rfl⟩
    · split
      · exact ⟨.error _, hbad _, rfl⟩
      · split
        · exact ⟨.error _, hbad _, rfl⟩
        · exact ⟨.ok (.text _), .text 126 _, rfl⟩
    · exact ⟨.ok (.text _), .text 126 _, rfl⟩
    · exact ⟨.ok _, (embeds_signersBody n.active 124).canonical, rfl⟩
    · exact ⟨.error (.unknownMethod _), Rpc.Error.embeds_toJson 124 (by decide) (by decide), rfl⟩

theorem encloses_perform {σ : Type} {update : (Node → Node) → σ → σ}
    {issue : TxHash → σ → Except IssueError Receipt × σ} {id : Json} {action : Action}
    (h : action.Encloses id) (s : σ) :
    Rpc.Encloses id (perform update issue action s).1 := by
  cases action with
  | reply response | submit raw response => exact h
  | attest hash render => exact h _

end Api

-- Whoever sends a body that is read as a call is answered in an envelope of this call, whatever the
-- call asks for and whatever comes of it. Its identifier may be any value without fractions.
theorem Rpc.envelopes_answer [SignatureScheme] {body : Bytes} {call : Rpc.Request}
    (hbody : Rpc.Request.ofBytes body = .ok call) (hid : call.id.Legible) :
    (∀ (n : Node) (attempt : TxHash → Except IssueError Receipt),
      Answers call.id (n.callWith call attempt).1) ∧
    ∀ {ω : Type} (s : ManagedNode ω) (outside : Node → Surroundings ω) (now : Timestamp)
      (request : Http.Request), request.Calls call →
        Answers call.id (s.serve outside now request).1 := by
  obtain ⟨hfits, hcanonical⟩ := Rpc.Request.fits_of_ofBytes hbody
  have hanswers : ∀ response, Encloses call.id response → Answers call.id response := by
    rintro response ⟨outcome, houtcome, rfl⟩
    exact answers_respond ⟨hid, hfits⟩ hcanonical houtcome
  constructor
  · intro n attempt
    exact hanswers _ (Api.encloses_perform (Api.encloses_call n call) n)
  · intro ω s outside now request hcalls
    refine hanswers _ (Api.encloses_perform ?_ s)
    rw [Api.route_of_calls hcalls]
    exact Api.encloses_call s.node call

-- A call of an old version and of no method, with both ends of the integers and a key to escape
-- in its identifier.
theorem Rpc.envelopes_answer_nested :
    let id : Json := .object [("z", .array [.null, .bool true, .number (.integer (-2 ^ 63)),
      .number (.integer (2 ^ 64 - 1))]), ("\"\n", .object [("", .text "\\")])]
    let body := Text.utf8
      (Json.object [("id", id), ("jsonrpc", .text "1.0"), ("method", .text "")]).render
    let call : Rpc.Request := ⟨"1.0", "", none, id.canonical⟩
    Rpc.Request.ofBytes body = .ok call ∧ call.id.Legible ∧
      Answers call.id (Node.lone.callWith call fun hash => .error (.txNotFound hash)).1 := by
  intro id body call
  have hid : id.Embeds 126 := by
    refine .object fun m hm => ?_
    simp only [List.mem_cons, List.not_mem_nil, or_false] at hm
    rcases hm with rfl | rfl
    · refine .array fun item hitem => ?_
      simp only [List.mem_cons, List.not_mem_nil, or_false] at hitem
      rcases hitem with rfl | rfl | rfl | rfl
      · exact ⟨.null, .null _⟩
      · exact ⟨.bool true, .bool _ true⟩
      · exact .integer _ (by decide) (by decide)
      · exact .integer _ (by decide) (by decide)
    · refine .object fun m hm => ?_
      obtain rfl := List.mem_singleton.mp hm
      exact .text _ _
  have hbody : Rpc.Request.ofBytes body = .ok call := Rpc.Request.ofBytes_render "1.0" "" hid
  have hlegible : call.id.Legible := hid.legible.canonical
  exact ⟨hbody, hlegible, (Rpc.envelopes_answer hbody hlegible).1 Node.lone _⟩

end SoftConfirm

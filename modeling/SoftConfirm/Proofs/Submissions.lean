import SoftConfirm.Proofs.Effects
import SoftConfirm.Proofs.Hex.Reading
import SoftConfirm.Proofs.Metrics

namespace SoftConfirm

theorem Decoder.keccak_eq_ok_iff {raw : RawTx} {hash : TxHash} :
    keccak raw = .ok hash ↔ raw ≠ [] ∧ hash = ⟨Keccak.hash raw, Keccak.length_hash raw⟩ := by
  unfold keccak
  cases raw with
  | nil => simp
  | cons byte raw => simp [eq_comm]

namespace Rpc

-- The characters that a call has in the place of a transaction's digits: its first parameter is a
-- text, and they are all of it or what follows a lower-case marker.
def Request.Offers (call : Request) (digits : List Char) : Prop :=
  ∃ text rest, call.params = some (.array (.text text :: rest)) ∧
    (text.toList = digits ∨ text.toList = '0' :: 'x' :: digits)

-- The bytes that a call hands in: some, and two digits for each.
def Request.HandsIn (call : Request) (raw : RawTx) : Prop :=
  raw ≠ [] ∧ ∃ digits, call.Offers digits ∧ Hex.Pairs digits raw

theorem Request.exists_handsIn_iff {call : Request} :
    (∃ raw, call.HandsIn raw) ↔ ∃ digits, call.Offers digits ∧ digits ≠ [] ∧
      digits.length % 2 = 0 ∧ ∀ c ∈ digits, ∃ value, Hex.Digit c value := by
  constructor
  · rintro ⟨raw, hne, digits, hoffers, hpairs⟩
    refine ⟨digits, hoffers, ?_, Hex.exists_pairs_iff.mp ⟨raw, hpairs⟩⟩
    rintro rfl
    cases hpairs
    exact hne rfl
  · rintro ⟨digits, hoffers, hne, heven, hdigits⟩
    obtain ⟨raw, hpairs⟩ := Hex.exists_pairs_iff.mpr ⟨heven, hdigits⟩
    refine ⟨raw, ?_, digits, hoffers, hpairs⟩
    rintro rfl
    cases hpairs
    exact hne rfl

theorem firstText?_eq_some_iff {params : Option Json} {text : String} :
    firstText? params = some text ↔ ∃ rest, params = some (.array (.text text :: rest)) := by
  constructor
  · intro h
    unfold firstText? at h
    split at h
    · rename_i value rest
      exact ⟨rest, by rw [Option.some.inj h]⟩
    · cases h
  · rintro ⟨rest, rfl⟩
    rfl

end Rpc

namespace Api

variable {n : Node} {call : Rpc.Request} {text : String} {digits : List Char} {raw : RawTx}
  {hash : TxHash}

-- A marker in the place of digits is none of them.
theorem not_pairs_marker : ¬ Hex.Pairs ('0' :: 'x' :: digits) raw := by
  intro h
  cases h with
  | cons _ hlow _ =>
      have hmarker : ∀ value < 16, ¬ Hex.Digit 'x' value := by decide
      exact hmarker _ hlow.lt hlow

theorem rawTx_eq_ok_iff {decode : Decoder} :
    rawTx decode text = .ok (raw, hash) ↔
      (∃ digits, (text.toList = digits ∨ text.toList = '0' :: 'x' :: digits) ∧
        Hex.Pairs digits raw) ∧ decode raw = .ok hash := by
  constructor
  · intro h
    obtain ⟨bytes, hbytes, h⟩ := exists_of_bind_eq_ok h
    obtain ⟨found, hfound, h⟩ := exists_of_bind_eq_ok h
    obtain ⟨rfl, rfl⟩ := Prod.mk.inj (Except.ok.inj h)
    have hpairs := Hex.decode_utf8_eq_ok_iff.mp (mapError_eq_ok_iff.mp hbytes)
    refine ⟨⟨_, ?_, hpairs⟩, mapError_eq_ok_iff.mp hfound⟩
    split
    · rename_i htext
      exact .inr htext
    · exact .inl rfl
  · rintro ⟨⟨digits, htext, hpairs⟩, hhash⟩
    unfold rawTx
    dsimp only
    split
    · rename_i cs hmarked
      obtain rfl : digits = cs := by
        rcases htext with rfl | htext
        · rw [hmarked] at hpairs
          exact absurd hpairs not_pairs_marker
        · rw [hmarked] at htext
          simpa using htext.symm
      rw [Hex.decode_utf8_eq_ok_iff.mpr hpairs]
      simp only [Except.mapError, bind, Except.bind, hhash, pure, Except.pure]
    · rename_i hplain
      obtain rfl : text.toList = digits := htext.resolve_right (hplain digits)
      rw [Hex.decode_utf8_eq_ok_iff.mpr hpairs]
      simp only [Except.mapError, bind, Except.bind, hhash, pure, Except.pure]

section

variable (hdecode : n.decode = .keccak) (hversion : call.version = "2.0")
  (hmethod : call.method = "ynx_sendRawTransaction")

include hdecode hversion hmethod

theorem call_of_handsIn (h : call.HandsIn raw) :
    Api.call n call = .submit raw (.json 200 (Rpc.respond call.id
      (.ok (.text ("0x" ++ Hex.encode (Keccak.hash raw)))))) := by
  obtain ⟨hne, digits, ⟨text, rest, hparams, htext⟩, hpairs⟩ := h
  refine call_eq_submit_iff.mpr ⟨hversion, hmethod, text, ⟨Keccak.hash raw, Keccak.length_hash raw⟩,
    Rpc.firstText?_eq_some_iff.mpr ⟨rest, hparams⟩, ?_, rfl⟩
  rw [hdecode]
  exact rawTx_eq_ok_iff.mpr ⟨⟨digits, htext, hpairs⟩, Decoder.keccak_eq_ok_iff.mpr ⟨hne, rfl⟩⟩

-- A call that hands in nothing is told that its parameters are bad.
theorem call_of_not_handsIn (h : ∀ raw, ¬ call.HandsIn raw) :
    ∃ reason, Api.call n call =
      .reply (.json 200 (Rpc.respond call.id (.error (.badParams reason)))) := by
  unfold Api.call
  rw [if_neg (not_not_intro hversion)]
  simp only [hmethod]
  cases htext : Rpc.firstText? call.params with
  | none => exact ⟨_, rfl⟩
  | some text =>
      dsimp only
      cases hraw : rawTx n.decode text with
      | error reason => exact ⟨_, rfl⟩
      | ok handedIn =>
          rw [hdecode] at hraw
          obtain ⟨⟨digits, hdigits, hpairs⟩, hhash⟩ := rawTx_eq_ok_iff.mp hraw
          obtain ⟨rest, hparams⟩ := Rpc.firstText?_eq_some_iff.mp htext
          have hne := (Decoder.keccak_eq_ok_iff.mp hhash).1
          exact absurd ⟨hne, digits, ⟨text, rest, hparams, hdigits⟩, hpairs⟩ (h handedIn.1)

end

end Api

namespace Node

variable {n : Node} {attempt : TxHash → Except IssueError Receipt}

-- Requests only ever add to the pool of a chain.
theorem chain_afterSteps_of_requests (n : Node) (steps : List Step) (h : ∀ s ∈ steps, s ≠ .tick) :
    ∃ raws, (n.afterSteps steps).chain = n.chain.push raws ∧
      (n.afterSteps steps).decode = n.decode := by
  induction steps using List.reverseRecOn with
  | nil => exact ⟨[], by rw [afterSteps, List.foldl_nil, Chain.push, List.append_nil], rfl⟩
  | append_singleton steps s ih =>
      obtain ⟨raws, hchain, hdecode⟩ := ih fun s hs => h s (List.mem_append_left _ hs)
      rw [afterSteps_concat]
      cases s with
      | tick => exact absurd rfl (h .tick (by simp))
      | request now request attempt =>
          obtain ⟨-, hstep⟩ | ⟨-, raw, hstep⟩ | ⟨hash, -, hstep⟩ :=
            (n.afterSteps steps).step_request now request attempt
          · rw [hstep]
            exact ⟨raws, hchain, hdecode⟩
          · rw [hstep]
            refine ⟨raws ++ [raw], ?_, hdecode⟩
            have hpushed : ((n.afterSteps steps).submit raw).chain =
              (n.afterSteps steps).chain.push [raw] := rfl
            rw [hpushed, hchain, Chain.push, Chain.push, Chain.push, List.append_assoc]
          · rw [hstep]
            exact ⟨raws, hchain, hdecode⟩

-- A transaction that waits has its place in the next block, whatever other requests are served
-- until then, and its hash is recorded there.
theorem included_after_requests {before : List RawTx} {raw : RawTx} {hash : TxHash}
    (hpool : n.chain.pool = before ++ [raw]) (hhash : n.decode raw = .ok hash)
    (steps : List Step) (h : ∀ s ∈ steps, s ≠ .tick) :
    let served := n.afterSteps steps
    ∃ later, served.chain.pool = before ++ raw :: later ∧
      served.produceBlock.1.included = before.filterMap (fun raw => (n.decode raw).toOption) ++
        hash :: later.filterMap (fun raw => (n.decode raw).toOption) ∧
      served.tick.chain.height? hash = some served.produceBlock.1.height := by
  intro served
  obtain ⟨later, hchain, hdecode⟩ := n.chain_afterSteps_of_requests steps h
  have hserved : served.chain.pool = before ++ raw :: later := by
    rw [hchain, Chain.pool_push, hpool, List.append_assoc, List.singleton_append]
  have hwaits : served.chain.Waits served.decode hash := by
    refine ⟨raw, ?_, hdecode ▸ hhash⟩
    rw [hserved]
    exact List.mem_append_right before List.mem_cons_self
  have hincluded : served.produceBlock.1.included =
      served.chain.pool.filterMap fun raw => (served.decode raw).toOption := rfl
  refine ⟨later, hserved, ?_, Chain.height?_produceBlock_of_waits hwaits⟩
  rw [hincluded, hserved, hdecode, List.filterMap_append,
    List.filterMap_cons_some (by rw [hhash, Except.toOption])]

theorem submit_eq (n : Node) (raw : RawTx) :
    n.submit raw = { n with
      chain := n.chain.push [raw]
      metrics := n.metrics.setPoolSize (n.chain.pool.length + 1) } := by
  have hlength : (n.chain.push [raw]).pool.length = n.chain.pool.length + 1 := by simp
  rw [submit, ← hlength]

section

variable {call : Rpc.Request} {raw : RawTx} (hdecode : n.decode = .keccak)
  (hversion : call.version = "2.0") (hmethod : call.method = "ynx_sendRawTransaction")

include hdecode hversion hmethod

theorem callWith_of_handsIn (h : call.HandsIn raw) (attempt : TxHash → Except IssueError Receipt) :
    (n.callWith call attempt).1 = .json 200 (Rpc.respond call.id
        (.ok (.text ("0x" ++ Hex.encode (Keccak.hash raw))))) ∧
      (n.callWith call attempt).2 = n.submit raw := by
  rw [callWith, Api.call_of_handsIn hdecode hversion hmethod h]
  exact ⟨rfl, rfl⟩

theorem callWith_of_not_handsIn (h : ¬ ∃ raw, call.HandsIn raw)
    (attempt : TxHash → Except IssueError Receipt) :
    (∃ reason, (n.callWith call attempt).1 =
        .json 200 (Rpc.respond call.id (.error ⟨-32602, reason, none⟩))) ∧
      (n.callWith call attempt).2 = n := by
  obtain ⟨reason, hcall⟩ := Api.call_of_not_handsIn hdecode hversion hmethod (not_exists.mp h)
  rw [callWith, hcall]
  exact ⟨⟨_, rfl⟩, rfl⟩

end

theorem serveWith_of_calls {now : Timestamp} {request : Http.Request} {call : Rpc.Request}
    (h : request.Calls call) : n.serveWith now request attempt = n.callWith call attempt := by
  rw [serveWith, callWith, Api.route_of_calls h]

-- A call to hand in a transaction is answered with a result exactly if its first parameter spells
-- some bytes. Then the result is their hash, these bytes are put behind the pool, and the next
-- block has that hash in their place. Otherwise the parameters are refused and nothing changes.
theorem submissions_accept_exactly {call : Rpc.Request} (hdecode : n.decode = .keccak)
    (hversion : call.version = "2.0") (hmethod : call.method = "ynx_sendRawTransaction")
    (attempt : TxHash → Except IssueError Receipt) :
    let response := (n.callWith call attempt).1
    let after := (n.callWith call attempt).2
    (∀ now request, request.Calls call → n.serveWith now request attempt = (response, after)) ∧
      ((∃ result, response = .json 200 (Rpc.respond call.id (.ok result))) ↔
        ∃ raw, call.HandsIn raw) ∧
      ((∃ raw, call.HandsIn raw) ↔
        ∃ digits, call.Offers digits ∧ digits ≠ [] ∧ digits.length % 2 = 0 ∧
          ∀ c ∈ digits, ∃ value, Hex.Digit c value) ∧
      (∀ raw, call.HandsIn raw →
        let hash : TxHash := ⟨Keccak.hash raw, Keccak.length_hash raw⟩
        let hash? (raw : RawTx) : Option TxHash := (Decoder.keccak raw).toOption
        response = .json 200 (Rpc.respond call.id (.ok (.text ("0x" ++ Hex.encode hash.bytes)))) ∧
          after = { n with
            chain := n.chain.push [raw]
            metrics := n.metrics.setPoolSize (n.chain.pool.length + 1) } ∧
          ∀ steps, (∀ s ∈ steps, s ≠ .tick) →
            let served := after.afterSteps steps
            ∃ later, served.chain.pool = n.chain.pool ++ raw :: later ∧
              served.produceBlock.1.included =
                n.chain.pool.filterMap hash? ++ hash :: later.filterMap hash? ∧
              served.tick.chain.height? hash = some served.produceBlock.1.height) ∧
      ((¬ ∃ raw, call.HandsIn raw) →
        (∃ reason, response = .json 200 (Rpc.respond call.id (.error ⟨-32602, reason, none⟩))) ∧
          after = n) := by
  intro response after
  have hresult : (∃ result, response = .json 200 (Rpc.respond call.id (.ok result))) ↔
      ∃ raw, call.HandsIn raw := by
    constructor
    · rintro ⟨result, hresponse⟩
      by_contra hnone
      obtain ⟨⟨reason, hrefused⟩, -⟩ :=
        callWith_of_not_handsIn hdecode hversion hmethod hnone attempt
      exact Rpc.respond_ok_ne_error _ _ _ _
        (Http.Response.json_inj (hresponse.symm.trans hrefused))
    · rintro ⟨raw, hraw⟩
      exact ⟨_, (callWith_of_handsIn hdecode hversion hmethod hraw attempt).1⟩
  refine ⟨fun now request => serveWith_of_calls, hresult, Rpc.Request.exists_handsIn_iff,
    fun raw hraw => ?_, fun hnone => callWith_of_not_handsIn hdecode hversion hmethod hnone attempt⟩
  intro hash hash?
  obtain ⟨hresponse, hafter⟩ := callWith_of_handsIn hdecode hversion hmethod hraw attempt
  refine ⟨hresponse, hafter.trans (n.submit_eq raw), fun steps hsteps => ?_⟩
  have hhash : (n.submit raw).decode raw = .ok hash := by
    rw [show (n.submit raw).decode = .keccak from hdecode]
    exact Decoder.keccak_eq_ok_iff.mpr ⟨hraw.1, rfl⟩
  have hnext := included_after_requests (n := n.submit raw) rfl hhash steps hsteps
  rw [show (n.submit raw).decode = .keccak from hdecode] at hnext
  rwa [show after = n.submit raw from hafter]

-- A byte in mixed case, with a second parameter that nobody looks at, and a text that has the
-- marker twice.
theorem submissions_accept_exactly_oneByte :
    let call (text : String) : Rpc.Request :=
      ⟨"2.0", "ynx_sendRawTransaction", some (.array [.text text, .null]), .null⟩
    let attempt (hash : TxHash) : Except IssueError Receipt := .error (.txNotFound hash)
    let after := (lone.callWith (call "0xaB") attempt).2
    (lone.callWith (call "0xaB") attempt).1 =
        .json 200 (Rpc.respond .null (.ok (.text ("0x" ++ Hex.encode (Keccak.hash [0xab]))))) ∧
      after.chain.pool = [[0xab]] ∧ after.tick.chain.height? oneByte = some 1 ∧
      (lone.callWith (call "0x0xab") attempt).2 = lone := by
  intro call attempt after
  have hversion (text : String) : (call text).version = "2.0" := rfl
  have hmethod (text : String) : (call text).method = "ynx_sendRawTransaction" := rfl
  obtain ⟨-, -, -, hanswered, -⟩ := submissions_accept_exactly (n := lone) rfl (hversion "0xaB")
    (hmethod "0xaB") attempt
  obtain ⟨-, -, -, -, hrefused⟩ := submissions_accept_exactly (n := lone) rfl (hversion "0x0xab")
    (hmethod "0x0xab") attempt
  have hhandsIn : (call "0xaB").HandsIn [0xab] := by
    refine ⟨by simp, ['a', 'B'], ⟨"0xaB", [.null], rfl, .inr rfl⟩, ?_⟩
    exact .cons (h := 10) (l := 11) (by decide) (by decide) .nil
  have hnone : ¬ ∃ raw, (call "0x0xab").HandsIn raw := by
    rintro ⟨raw, -, digits, ⟨text, rest, hparams, htext⟩, hpairs⟩
    cases hparams
    rcases htext with rfl | htext
    · exact Api.not_pairs_marker hpairs
    · obtain rfl : ['0', 'x', 'a', 'b'] = digits := (List.cons.inj (List.cons.inj htext).2).2
      exact Api.not_pairs_marker hpairs
  obtain ⟨hresponse, hafter, hblock⟩ := hanswered [0xab] hhandsIn
  obtain ⟨-, -, -, hheight⟩ := hblock [] nofun
  refine ⟨hresponse, ?_, hheight, (hrefused hnone).2⟩
  rw [show after = _ from hafter]
  rfl

end Node

end SoftConfirm

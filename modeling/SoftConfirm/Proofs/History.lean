import Mathlib.Data.List.Induction
import SoftConfirm.Node.History
import SoftConfirm.Proofs.Attempts
import SoftConfirm.Proofs.Production
import SoftConfirm.Proofs.Routes

namespace SoftConfirm

namespace Node

section

variable {m n : Node} {now : Timestamp} {request : Http.Request} {hash : TxHash}

-- The answer to a transaction that is handed in has its hash, and no other.
theorem accepts_iff :
    n.Accepts now request hash ↔
      ∃ raw, (Api.route n now request).raw? = some raw ∧ n.decode raw = .ok hash := by
  constructor
  · rintro ⟨raw, id, hraw, hroute⟩
    exact ⟨raw, congrArg Action.raw? hroute, hraw⟩
  · rintro ⟨raw, hroute, hraw⟩
    obtain ⟨response, haction⟩ := Action.raw?_eq_some_iff.mp hroute
    obtain ⟨found, id, hfound, rfl⟩ := Api.tells_of_submit haction
    obtain rfl := Except.ok.inj (hfound.symm.trans hraw)
    exact ⟨raw, id, hraw, haction⟩

theorem asks_iff : n.Asks now request hash ↔ (Api.route n now request).asked? = some hash :=
  Action.asked?_eq_some_iff.symm

-- What a request hands in and what it asks for is the same in every state of a node.
theorem accepts_congr (h : m.decode = n.decode) :
    m.Accepts now request hash ↔ n.Accepts now request hash := by
  rw [accepts_iff, accepts_iff, (Api.alike_route h now request).1, h]

theorem asks_congr (h : m.decode = n.decode) :
    m.Asks now request hash ↔ n.Asks now request hash := by
  rw [asks_iff, asks_iff, (Api.alike_route h now request).2]

end

def Event.isTick : Event → Bool
  | .tick => true
  | .request _ _ | .stopped _ => false

section

variable [SignatureScheme] {n : Node} {hash : TxHash}

theorem after_concat (n : Node) (events : List Event) (event : Event) :
    n.after (events ++ [event]) = (n.after events).act event :=
  List.foldl_append

theorem after_append (n : Node) (events others : List Event) :
    n.after (events ++ others) = (n.after events).after others :=
  List.foldl_append

-- Requests and ticks change the chain of a node and what it has counted, and nothing else.
theorem act_eq (event : Event) (n : Node) :
    ∃ metrics, n.act event = { n with chain := (n.act event).chain, metrics } := by
  cases event with
  | request now request =>
      simp only [act, serve, Api.perform]
      split
      · exact ⟨_, rfl⟩
      · exact ⟨_, rfl⟩
      · simp only [issue_eq]
        exact ⟨_, rfl⟩
  | stopped cause => exact ⟨_, rfl⟩
  | tick => exact ⟨_, rfl⟩

theorem after_eq (n : Node) (events : List Event) :
    ∃ metrics, n.after events = { n with chain := (n.after events).chain, metrics } := by
  induction events using List.reverseRecOn with
  | nil => exact ⟨n.metrics, rfl⟩
  | append_singleton events event ih =>
      obtain ⟨metrics, hmetrics⟩ := ih
      obtain ⟨others, hothers⟩ := act_eq event (n.after events)
      refine ⟨others, ?_⟩
      rw [after_concat, hothers, hmetrics]

@[simp] theorem decode_after (n : Node) (events : List Event) :
    (n.after events).decode = n.decode := by
  obtain ⟨metrics, h⟩ := after_eq n events
  rw [h]

@[simp] theorem scanLimit_after (n : Node) (events : List Event) :
    (n.after events).scanLimit = n.scanLimit := by
  obtain ⟨metrics, h⟩ := after_eq n events
  rw [h]

theorem Serving.after (h : n.Serving) (events : List Event) : (n.after events).Serving := by
  obtain ⟨metrics, heq⟩ := after_eq n events
  rw [heq]
  exact ⟨h.backend, h.keys⟩

-- A request puts what it hands in behind what waits already, and leaves the chain alone otherwise.
theorem chain_act_request (n : Node) (now : Timestamp) (request : Http.Request) :
    (n.act (.request now request)).chain =
      n.chain.push (Api.route n now request).raw?.toList := by
  cases hroute : Api.route n now request with
  | submit raw response => simp only [act, serve, Api.perform, hroute, id, submit]; rfl
  | reply response =>
      simp only [act, serve, Api.perform, hroute, Action.raw?, Option.toList_none, Chain.push,
        List.append_nil]
  | attest hash render =>
      simp only [act, serve, Api.perform, hroute, id, issue_eq, countAttempt, Action.raw?,
        Option.toList_none, Chain.push, List.append_nil]

theorem waits_act_request (now : Timestamp) (request : Http.Request) :
    (n.act (.request now request)).chain.Waits n.decode hash ↔
      n.chain.Waits n.decode hash ∨ n.Accepts now request hash := by
  rw [chain_act_request, Chain.waits_push, accepts_iff]
  simp only [Option.mem_toList]

theorem height?_act_request (now : Timestamp) (request : Http.Request) :
    (n.act (.request now request)).chain.height? hash = n.chain.height? hash := by
  rw [chain_act_request]
  rfl

theorem head_act (event : Event) (n : Node) :
    (n.act event).chain.head = if event.isTick then n.chain.head + 1 else n.chain.head := by
  cases event with
  | request now request => rw [chain_act_request]; rfl
  | stopped cause => rfl
  | tick => exact Chain.head_produceBlock n.chain n.decode

-- The head counts the ticks.
theorem head_after (n : Node) (events : List Event) :
    (n.after events).chain.head =
      n.chain.head + UInt64.ofNat (events.countP Event.isTick) := by
  induction events using List.reverseRecOn with
  | nil => exact (UInt64.add_zero n.chain.head).symm
  | append_singleton events event ih =>
      rw [after_concat, head_act, ih, List.countP_append, UInt64.ofNat_add, ← UInt64.add_assoc]
      cases event with
      | tick => rfl
      | request now request | stopped cause => exact (UInt64.add_zero _).symm

theorem waits_act_tick : ¬ (n.act .tick).chain.Waits n.decode hash := by
  rintro ⟨raw, hraw, -⟩
  rw [show (n.act .tick).chain.pool = [] from Chain.pool_produceBlock n.chain n.decode] at hraw
  exact List.not_mem_nil hraw

-- An event that takes the transaction into no block leaves its record alone.
theorem height?_act {event : Event} (h : event = .tick → ¬ n.chain.Waits n.decode hash) :
    (n.act event).chain.height? hash = n.chain.height? hash := by
  cases event with
  | request now request => exact height?_act_request now request
  | stopped cause => rfl
  | tick => exact Chain.height?_produceBlock_of_not_waits (h rfl)

-- Whether a transaction with this hash has been accepted since the last of these ticks.
def Queued (n : Node) (events : List Event) (hash : TxHash) : Prop :=
  ∃ before now request rest, events = before ++ .request now request :: rest ∧ .tick ∉ rest ∧
    (n.after before).Accepts now request hash

theorem queued_concat {events : List Event} {event : Event} :
    n.Queued (events ++ [event]) hash ↔
      (event ≠ .tick ∧ n.Queued events hash) ∨
        ∃ now request, event = .request now request ∧
          (n.after events).Accepts now request hash := by
  constructor
  · rintro ⟨before, now, request, rest, hsplit, hrest, haccepts⟩
    rcases rest.eq_nil_or_concat with rfl | ⟨rest, last, rfl⟩
    · obtain ⟨rfl, hlast⟩ := List.append_inj' hsplit rfl
      exact .inr ⟨now, request, List.singleton_inj.mp hlast, haccepts⟩
    · rw [List.concat_eq_append] at hsplit hrest
      rw [← List.cons_append, ← List.append_assoc] at hsplit
      obtain ⟨rfl, hlast⟩ := List.append_inj' hsplit rfl
      obtain rfl := List.singleton_inj.mp hlast
      rw [List.mem_append, not_or, List.mem_singleton] at hrest
      exact .inl ⟨Ne.symm hrest.2, before, now, request, rest, rfl, hrest.1, haccepts⟩
  · rintro (⟨hevent, before, now, request, rest, rfl, hrest, haccepts⟩ |
      ⟨now, request, rfl, haccepts⟩)
    · refine ⟨before, now, request, rest ++ [event], by simp, ?_, haccepts⟩
      rw [List.mem_append, not_or, List.mem_singleton]
      exact ⟨hrest, Ne.symm hevent⟩
    · exact ⟨events, now, request, [], rfl, List.not_mem_nil, haccepts⟩

theorem not_queued_tick (events : List Event) : ¬ n.Queued (events ++ [.tick]) hash := by
  rw [queued_concat]
  rintro (⟨htick, -⟩ | ⟨now, request, htick, -⟩)
  · exact htick rfl
  · exact absurd htick nofun

-- What waits in the pool is what has been accepted since the last tick.
theorem waits_iff_queued (hpool : n.chain.pool = []) (events : List Event) :
    (n.after events).chain.Waits n.decode hash ↔ n.Queued events hash := by
  induction events using List.reverseRecOn with
  | nil => simp [after, Chain.Waits, Queued, hpool]
  | append_singleton events event ih =>
      rw [after_concat, queued_concat, ← ih]
      cases event with
      | request now request =>
          have hwaits : (act _ (n.after events)).chain.Waits (n.after events).decode hash ↔ _ :=
            waits_act_request now request
          rw [decode_after] at hwaits
          simp [hwaits]
      | stopped cause => simp [act, countAttempt]
      | tick =>
          have hgone : ¬ (act .tick (n.after events)).chain.Waits (n.after events).decode hash :=
            waits_act_tick
          rw [decode_after] at hgone
          simp [hgone]

-- The record of a transaction stays as it is while no tick finds it waiting.
theorem height?_after_of_not_queued (hpool : n.chain.pool = []) {earlier later : List Event}
    (hle : earlier <+: later)
    (hnone : ∀ part, earlier <+: part → part ++ [.tick] <+: later → ¬ n.Queued part hash) :
    (n.after later).chain.height? hash = (n.after earlier).chain.height? hash := by
  induction later using List.reverseRecOn with
  | nil => rw [List.prefix_nil.mp hle]
  | append_singleton later event ih =>
      rcases List.prefix_concat_iff.mp hle with rfl | hbefore
      · rfl
      · have hsame := ih hbefore fun part hfrom hto =>
          hnone part hfrom (hto.trans (List.prefix_append later [event]))
        rw [after_concat, ← hsame]
        refine height?_act ?_
        rintro rfl
        rw [decode_after, waits_iff_queued hpool]
        exact hnone later hbefore (List.prefix_refl _)

-- A tick that finds a transaction waiting records it at the height of its block.
theorem height?_after_of_queued (hpool : n.chain.pool = []) {events : List Event}
    (h : n.Queued events hash) :
    (n.after (events ++ [.tick])).chain.height? hash = some ((n.after events).chain.head + 1) := by
  rw [after_concat]
  refine Chain.height?_produceBlock_of_waits ?_
  rw [decode_after, waits_iff_queued hpool]
  exact h

theorem indexed_after (earlier later : List Event) (n : Node) (hle : earlier <+: later)
    (h : (n.after earlier).chain.Indexed hash) : (n.after later).chain.Indexed hash := by
  obtain ⟨rest, rfl⟩ := hle
  induction rest using List.reverseRecOn with
  | nil => rwa [List.append_nil]
  | append_singleton rest event ih =>
      rw [← List.append_assoc, after_concat]
      by_cases hwaits : event = .tick ∧
          (n.after (earlier ++ rest)).chain.Waits (n.after (earlier ++ rest)).decode hash
      · obtain ⟨rfl, hwaits⟩ := hwaits
        exact Option.isSome_of_eq_some (Chain.height?_produceBlock_of_waits hwaits)
      · rw [Chain.Indexed, height?_act fun htick hw => hwaits ⟨htick, hw⟩]
        exact ih

section receipts

variable {now : Timestamp} {request : Http.Request} {r : Receipt}

theorem receipt?_eq_some_iff :
    n.receipt? now request = some r ↔
      ∃ hash, n.Asks now request hash ∧ (n.issue hash now.seconds).1 = .ok r := by
  unfold receipt?
  constructor
  · intro h
    split at h
    · rename_i hash render hroute
      refine ⟨hash, ⟨render, hroute⟩, ?_⟩
      cases hissue : (n.issue hash now.seconds).1 with
      | ok issued =>
          rw [hissue] at h
          exact congrArg Except.ok (Option.some.inj h)
      | error e =>
          rw [hissue] at h
          exact absurd h nofun
    · exact absurd h nofun
    · exact absurd h nofun
  · rintro ⟨hash, ⟨render, hroute⟩, hissue⟩
    simp only [hroute, hissue]
    rfl

-- A receipt calls a transaction included at a height exactly if it is recorded there.
theorem included_iff (hr : n.receipt? now request = some r) (height : UInt64) :
    r.payload.status = .included ∧ r.payload.targetBlock = height ↔
      n.chain.height? r.payload.txHash = some height := by
  obtain ⟨hash, -, hissue⟩ := receipt?_eq_some_iff.mp hr
  obtain ⟨found, hfound, hpayload⟩ := exists_found_of_issue hissue
  have hlookup : n.outcome (Issuance.resolve n.decode n.scanLimit hash) =
      .ok ⟨.included, height⟩ ↔ _ := outcome_resolve_included_iff
  rw [hpayload]
  simp only [Issuance.payload]
  rw [← hlookup, hfound]
  constructor
  · rintro ⟨hstatus, htarget⟩
    rw [← hstatus, ← htarget]
  · intro h
    obtain rfl := Except.ok.inj h
    exact ⟨rfl, rfl⟩

-- Who asks a node that can issue receipts is given one of what the node finds.
theorem exists_receipt_of_found (hserving : n.Serving) (hasks : n.Asks now request hash)
    {found : Resolution}
    (hfound : n.outcome (Issuance.resolve n.decode n.scanLimit hash) = .ok found) :
    ∃ r, n.receipt? now request = some r ∧ r.payload.txHash = hash ∧
      r.payload.status = found.status ∧ r.payload.targetBlock = found.targetBlock ∧
      (request.method ≠ "HEAD" → (n.serve now request).1.Holds r) := by
  obtain ⟨r, hissue, hpayload⟩ := exists_issue_of_found hserving hfound now.seconds
  refine ⟨r, receipt?_eq_some_iff.mpr ⟨hash, hasks, hissue⟩, congrArg Payload.txHash hpayload,
    congrArg Payload.status hpayload, congrArg Payload.targetBlock hpayload, fun hmethod => ?_⟩
  obtain ⟨render, hroute⟩ := hasks
  have hresponse : (n.serve now request).1 = render (.ok r) := by
    simp only [serve, Api.perform, hroute, hissue]
  rw [hresponse]
  exact Api.holds_of_attest hroute hmethod r

end receipts

end

-- The smallest node that issues receipts, and a client that hands in one byte and asks about it.
def lone : Node where
  version := ""
  context := ⟨"", 0⟩
  decode := .keccak
  hasBackend := true
  scanLimit := 1
  active := some ⟨[.held ⟨⟨1, by decide, by decide⟩, .zero⟩], 1, by simp, by simp, by decide,
    by decide⟩
  chain := .empty
  metrics := .zero

def oneByte : TxHash := ⟨Keccak.hash [0xab], Keccak.length_hash [0xab]⟩

def handIn : Http.Request where
  method := "POST"
  target := "/rpc"
  headers := [("content-type", "application/json")]
  body := Text.utf8 ("\x7b\"jsonrpc\": \"2.0\", \"method\": \"ynx_sendRawTransaction\", " ++
    "\"params\": [\"0xab\"], \"id\": 1\x7d")

def askFor (hash : TxHash) : Http.Request := ⟨"GET", "/preconfirm/" ++ hash.toHex, [], []⟩

theorem serving_lone : lone.Serving where
  backend := rfl
  keys := ⟨_, rfl, fun _ hsigner => ⟨_, List.mem_singleton.mp hsigner⟩⟩

theorem accepts_lone [SignatureScheme] (events : List Event) :
    (lone.after events).Accepts ⟨0, 0⟩ handIn oneByte := by
  rw [accepts_congr (decode_after lone events), accepts_iff]
  exact ⟨[0xab], by decide +kernel, rfl⟩

theorem asks_lone [SignatureScheme] (events : List Event) :
    (lone.after events).Asks ⟨0, 0⟩ (askFor oneByte) oneByte := by
  rw [asks_congr (decode_after lone events), asks_iff]
  decide +kernel

-- What is handed in before a tick is in the block of the tick, and the blocks are counted from one.
theorem height?_lone [SignatureScheme] (events : List Event) :
    (lone.after (events ++ [.request ⟨0, 0⟩ handIn, .tick])).chain.height? oneByte =
      some (UInt64.ofNat (events.countP Event.isTick) + 1) := by
  have hqueued : lone.Queued (events ++ [.request ⟨0, 0⟩ handIn]) oneByte :=
    ⟨events, _, _, [], rfl, List.not_mem_nil, accepts_lone events⟩
  have hheight := height?_after_of_queued rfl hqueued
  rw [head_after, List.countP_append, show lone.chain.head = 0 from rfl, UInt64.zero_add] at hheight
  rwa [List.append_assoc] at hheight

end Node

end SoftConfirm

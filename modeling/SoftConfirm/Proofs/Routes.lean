import SoftConfirm.Api

namespace SoftConfirm

open Http (Response)

-- A response that holds a receipt, whole or as the result of a call.
def Http.Response.Holds (response : Response) (r : Receipt) : Prop :=
  response = .json 200 r.toJson ∨
    ∃ id, response = .json 200 (Rpc.respond id (.ok r.toJson.canonical))

namespace Action

-- What an action hands in, and what it asks for.
def raw? : Action → Option RawTx
  | .submit raw _ => some raw
  | .reply _ | .attest _ _ => none

def asked? : Action → Option TxHash
  | .attest hash _ => some hash
  | .reply _ | .submit _ _ => none

theorem raw?_eq_some_iff {action : Action} {raw : RawTx} :
    action.raw? = some raw ↔ ∃ response, action = .submit raw response := by
  cases action with
  | submit other response => simp [raw?]
  | reply response | attest hash render => simp [raw?]

theorem ne_submit {action : Action} (h : action.raw? = none) (raw : RawTx) (response : Response) :
    action ≠ .submit raw response := by
  rintro rfl
  exact absurd h nofun

theorem asked?_eq_some_iff {action : Action} {hash : TxHash} :
    action.asked? = some hash ↔ ∃ render, action = .attest hash render := by
  cases action with
  | attest other render => simp [asked?]
  | reply response | submit raw response => simp [asked?]

-- Two actions that hand in and ask for the same.
def Alike (a b : Action) : Prop := a.raw? = b.raw? ∧ a.asked? = b.asked?

theorem Alike.refl (a : Action) : a.Alike a := ⟨rfl, rfl⟩

theorem Alike.headOnly {a b : Action} (h : a.Alike b) :
    (Api.headOnly a).Alike (Api.headOnly b) := by
  cases a <;> cases b <;> exact h

-- What an action says of its outcome: whoever submits a transaction is told its hash, and whoever
-- asks for a receipt is given the one that is issued.
def Tells (decode : Decoder) : Action → Prop
  | .reply _ => True
  | .submit raw response => ∃ hash id, decode raw = .ok hash ∧
      response = .json 200 (Rpc.respond id (.ok (.text hash.toHex)))
  | .attest _ render => ∀ r, (render (.ok r)).Holds r

end Action

namespace Api

variable {n : Node} {now : Timestamp} {request : Http.Request}

theorem decode_of_rawTx {decode : Decoder} {text : String} {raw : RawTx} {hash : TxHash}
    (h : rawTx decode text = .ok (raw, hash)) : decode raw = .ok hash := by
  unfold rawTx at h
  simp only [bind, Except.bind] at h
  split at h
  · exact absurd h nofun
  · rename_i bytes _
    cases hbytes : decode bytes with
    | ok found =>
        rw [hbytes] at h
        obtain ⟨rfl, rfl⟩ := Prod.mk.inj (Except.ok.inj h)
        exact hbytes
    | error e =>
        rw [hbytes] at h
        exact absurd h nofun

theorem tells_call (n : Node) (request : Rpc.Request) : (call n request).Tells n.decode := by
  unfold call
  split
  · trivial
  · split
    · split
      · trivial
      · split
        · trivial
        · exact fun r => .inr ⟨request.id, rfl⟩
    · split
      · trivial
      · split
        · trivial
        · rename_i hrawTx
          exact ⟨_, request.id, decode_of_rawTx hrawTx, rfl⟩
    · trivial
    · trivial
    · trivial

theorem tells_askGateway (n : Node) (request : Http.Request) :
    (askGateway n request).Tells n.decode := by
  unfold askGateway
  dsimp only
  split
  · split
    · trivial
    · split
      · trivial
      · split
        · trivial
        · trivial
        · exact tells_call n _
  · trivial

theorem tells_askReceipt (decode : Decoder) (raw : List Char) :
    (askReceipt raw).Tells decode := by
  unfold askReceipt
  split
  · trivial
  · split
    · trivial
    · exact fun r => .inl rfl

theorem tells_read (n : Node) (now : Timestamp) (resource : Resource) :
    (read n now resource).Tells n.decode := by
  cases resource with
  | receipt raw => exact tells_askReceipt n.decode raw
  | health | status | signers | gateway => trivial

-- Readers submit nothing.
theorem raw?_read (n : Node) (now : Timestamp) (resource : Resource) :
    (read n now resource).raw? = none := by
  cases resource with
  | receipt text =>
      simp only [read, askReceipt]
      split
      · rfl
      · split
        · rfl
        · rfl
  | health | status | signers | gateway => rfl

theorem raw?_headOnly (action : Action) : (headOnly action).raw? = action.raw? := by
  cases action <;> rfl

-- What a request comes down to tells of its outcome, unless only the head of the response is
-- asked for.
theorem tells_route (n : Node) (now : Timestamp) (request : Http.Request) :
    (route n now request).Tells n.decode ∨
      request.method = "HEAD" ∧ ∀ raw response, route n now request ≠ .submit raw response := by
  unfold route
  split
  · exact .inl trivial
  · split
    · exact .inl trivial
    · split
      · exact .inl (tells_askGateway n request)
      · exact .inl (tells_read n now _)
      · rename_i hmethod _
        exact .inr ⟨hmethod, Action.ne_submit ((raw?_headOnly _).trans (raw?_read n now _))⟩
      · exact .inl trivial

theorem tells_of_submit {raw : RawTx} {response : Response}
    (h : route n now request = .submit raw response) :
    ∃ hash id, n.decode raw = .ok hash ∧
      response = .json 200 (Rpc.respond id (.ok (.text hash.toHex))) := by
  rcases tells_route n now request with htells | ⟨-, hnone⟩
  · rw [h] at htells
    exact htells
  · exact absurd h (hnone raw response)

theorem holds_of_attest {hash : TxHash} {render : Except IssueError Receipt → Response}
    (h : route n now request = .attest hash render) (hmethod : request.method ≠ "HEAD")
    (r : Receipt) : (render (.ok r)).Holds r := by
  rcases tells_route n now request with htells | ⟨hhead, -⟩
  · rw [h] at htells
    exact htells r
  · exact absurd hhead hmethod

-- In every state of a node a request hands in and asks for the same.
theorem alike_call {m n : Node} (h : m.decode = n.decode) (request : Rpc.Request) :
    (call m request).Alike (call n request) := by
  unfold call
  rw [h]
  split
  · exact .refl _
  · split
    · exact .refl _
    · exact .refl _
    · exact ⟨rfl, rfl⟩
    · exact ⟨rfl, rfl⟩
    · exact .refl _

theorem alike_askGateway {m n : Node} (h : m.decode = n.decode) (request : Http.Request) :
    (askGateway m request).Alike (askGateway n request) := by
  unfold askGateway
  dsimp only
  split
  · split
    · exact .refl _
    · split
      · exact .refl _
      · split
        · exact .refl _
        · exact .refl _
        · exact alike_call h _
  · exact .refl _

theorem alike_read (m n : Node) (now : Timestamp) (resource : Resource) :
    (read m now resource).Alike (read n now resource) := by
  cases resource with
  | health | status | signers | gateway => exact ⟨rfl, rfl⟩
  | receipt raw => exact .refl _

theorem alike_route {m n : Node} (h : m.decode = n.decode) (now : Timestamp)
    (request : Http.Request) : (route m now request).Alike (route n now request) := by
  unfold route
  split
  · exact .refl _
  · split
    · exact .refl _
    · split
      · exact alike_askGateway h request
      · exact alike_read m n now _
      · exact (alike_read m n now _).headOnly
      · exact .refl _

end Api

end SoftConfirm

import Conformance.Proofs.Rpc.Binding
import Conformance.Proofs.Rpc.Formats

namespace Conformance

namespace Failure

/-- The failure with contexts around it, the outermost first. -/
def wrapped (contexts : List String) (f : Failure) : Failure := contexts.foldr within f

/-- A context has no kind of its own, so that the walk along the chain passes it by. -/
theorem kind_within (context : String) (f : Failure) : (f.within context).kind = f.kind := by
  have hchain : (f.within context).chain = .context context :: f.chain := rfl
  simp only [kind, hchain, List.findSome?_cons, ChainLink.kind?]

theorem kind_wrapped (contexts : List String) (f : Failure) : (f.wrapped contexts).kind = f.kind := by
  induction contexts with
  | nil => rfl
  | cons context contexts ih => exact (kind_within context _).trans ih

theorem kind_ofRpc (e : Rpc.Error) : (ofRpc e).kind = .ofRpc e := rfl

end Failure

namespace Rpc
variable {β π ρ : Type}

/-- What exercised the machine is what the machine itself reported. -/
theorem Error.exercisedSut_ofRpc (e : Error) :
    (FailureKind.ofRpc e).exercisedSut = !e.isTransport := by
  cases e <;> rfl

/-- A fault blames the machine if it is the machine's. -/
theorem Error.ofRpc_ofFault (method : String) (fault : Fault) :
    FailureKind.ofRpc (.ofFault method fault) = if fault.kind = .backend then .sut else .setup := by
  obtain ⟨kind, message⟩ := fault
  cases kind <;> rfl

namespace Client
variable {m : Method π ρ} {id : UInt64} {reply : Response}

/-- A fault that arrives is the error of the call. -/
theorem interpret_fault (hid : reply.id = id) {fault : Fault} (h : reply.fault = some fault) :
    interpret m id { value := Response.codec.encode reply } = .error (.ofFault m.name fault) := by
  have hheard : reply.heard.id = id ∧ reply.heard.fault = some fault := by
    unfold Response.heard
    split <;> exact ⟨hid, h⟩
  simp [interpret, Response.decode_encode, hheard.1, hheard.2]

/-- An answer without a fault is taken as a result, or is malformed. -/
theorem interpret_result (hid : reply.id = id) (h : reply.fault = none) :
    (∃ x, interpret m id { value := Response.codec.encode reply } = .ok x) ∨
      ∃ flaw, interpret m id { value := Response.codec.encode reply } =
        .error (.decode m.name flaw) := by
  have hheard : reply.heard.id = id ∧ reply.heard.fault = none := by
    unfold Response.heard
    split <;> exact ⟨hid, h⟩
  cases hresult : m.result.ofOpaque (reply.heard.result.getD .null) with
  | ok x => exact .inl ⟨x, by simp [interpret, Response.decode_encode, hheard.1, hheard.2, hresult]⟩
  | error e =>
    exact .inr ⟨.result e, by
      simp [interpret, Response.decode_encode, hheard.1, hheard.2, hresult]⟩

end Client

/-- The outcome of a call is an error of a kind, in whatever contexts it is seen. -/
def Blames (kind : FailureKind) (result : Except Error ρ) : Prop :=
  ∃ e, result = .error e ∧ ∀ contexts, ((Failure.ofRpc e).wrapped contexts).kind = kind

theorem blames_error {kind : FailureKind} {e : Error} :
    Blames kind (.error e : Except Error ρ) ↔ FailureKind.ofRpc e = kind := by
  constructor
  · rintro ⟨e', he, hkind⟩
    cases he
    exact hkind []
  · intro h
    exact ⟨e, rfl, fun contexts => (Failure.kind_wrapped contexts _).trans h⟩

/-- Who is blamed for an answer goes by the fault that the server reports. -/
theorem Client.interpret_blames (m : Method π ρ) (id : UInt64) (outcome : Except Fault Opaque) :
    let result := interpret m id { value := Response.codec.encode (.ofOutcome id outcome) }
    (Blames .sut result ↔ ∃ fault, outcome = .error fault ∧ fault.kind = .backend) ∧
      ∀ fault, outcome = .error fault → fault.kind ≠ .backend → Blames .setup result := by
  intro result
  cases outcome with
  | error fault =>
    have hresult : result = .error (.ofFault m.name fault) := interpret_fault rfl rfl
    rw [hresult, blames_error, Error.ofRpc_ofFault]
    constructor
    · constructor
      · intro h
        refine ⟨fault, rfl, by_contra (fun hkind => ?_)⟩
        rw [if_neg hkind] at h
        cases h
      · rintro ⟨_, ⟨⟩, hkind⟩
        exact if_pos hkind
    · rintro _ ⟨⟩ hkind
      rw [blames_error, Error.ofRpc_ofFault, if_neg hkind]
  | ok v =>
    have hresult : ∀ e, result = .error e → FailureKind.ofRpc e = .setup := by
      intro e he
      have hread : (∃ x, result = .ok x) ∨ ∃ flaw, result = .error (.decode m.name flaw) :=
        interpret_result rfl rfl
      rcases hread with ⟨x, hx⟩ | ⟨flaw, hflaw⟩
      · cases hx.symm.trans he
      · cases hflaw.symm.trans he
        rfl
    refine ⟨⟨fun ⟨e, he, hkind⟩ => ?_, fun ⟨_, h, _⟩ => by cases h⟩, fun _ h => by cases h⟩
    have hsut := (hresult e he).symm.trans (hkind [])
    cases hsut

/-- Blame is settled where a failure arises. Contexts do not move it, and an error of a call counts as
exercising the machine unless it is one of transport. A call from afar blames the machine if and only if
what the request asked for made the machine return an error; an unknown method, or parameters that are
not those of the method, are the test's own fault. -/
theorem blame_settled :
    (∀ (contexts : List String) (f : Failure), (f.wrapped contexts).kind = f.kind) ∧
    (∀ (contexts : List String) (e : Error),
      ((Failure.ofRpc e).wrapped contexts).kind.exercisedSut = !e.isTransport) ∧
    ∀ {β π ρ : Type} (b : Backend β) (checks : Checks) (c : Client) (m : Method π ρ) (p : π)
      (s : Client.Session β),
      let request : Request := { id := s.nextId, method := m.name, params := m.params.store p }
      let result := (c.call (.lossless (b.dispatch checks)) m p s).1
      (Blames .sut result ↔ ∃ (α : Type) (k : Backend.Call α) (e : Failure),
        request.Asks (.call k) ∧ (b.call k s.peer).1 = .error e ∧ e.isOverflow = false) ∧
      (request.method ∉ Service.names ∨ (∃ e, request.Refused e) → Blames .setup result) := by
  refine ⟨Failure.kind_wrapped, fun contexts e => ?_, fun b checks c m p s => ?_⟩
  · rw [Failure.kind_wrapped, Failure.kind_ofRpc, Error.exercisedSut_ofRpc]
  · intro request result
    let reply : Response := .ofOutcome s.nextId (b.carryOut checks request s.peer).1
    have hresult : result = Client.interpret m s.nextId { value := Response.codec.encode reply } :=
      congrArg Prod.fst (c.call_lossless (b.dispatch checks) m p s)
    obtain ⟨hsut, hsetup⟩ :=
      Client.interpret_blames m s.nextId (b.carryOut checks request s.peer).1
    rw [hresult]
    refine ⟨hsut.trans ?_, ?_⟩
    · constructor
      · rintro ⟨fault, hfault, hkind⟩
        obtain ⟨α, k, e, hasks, he, hof⟩ := (Backend.carryOut_failed_iff (.inl hkind)).mp hfault
        obtain ⟨kind, message⟩ := fault
        obtain rfl : kind = .backend := hkind
        exact ⟨α, k, e, hasks, he, (Server.faultOf_eq_backend.mp hof).1⟩
      · rintro ⟨α, k, e, hasks, he, hover⟩
        have hof := Server.faultOf_eq_backend.mpr ⟨hover, rfl⟩
        exact ⟨_, (Backend.carryOut_failed_iff (.inl rfl)).mpr ⟨α, k, e, hasks, he, hof⟩, rfl⟩
    · rintro (h | ⟨e, h⟩)
      · exact hsetup _ (congrArg Prod.fst (Backend.carryOut_unserved h s.peer)) (by simp)
      · exact hsetup _ (congrArg Prod.fst (Backend.carryOut_refused h s.peer)) (by simp)

/-- A method that is not served, and a root that is asked for when there is no machine. -/
theorem blame_settled_stop :
    let c := Client.ofEndpoint "http://127.0.0.1" 30000
    let link : Link (Option Sandbox) := .lossless ((sandboxServer {}).backend.dispatch {})
    let stop : Method Unit Unit := ⟨"VMWrapper.Stop", Method.empty, Method.empty⟩
    stop.name ∉ Service.names ∧ Blames .setup (c.call link stop () { peer := none }).1 ∧
      Blames .sut (c.call link .root () { peer := none }).1 := by
  intro c link stop
  obtain ⟨-, -, hcall⟩ := blame_settled
  have hname : stop.name ∉ Service.names := by decide
  have hstop := (hcall (sandboxServer {}).backend {} c stop () { peer := none }).2 (.inl hname)
  have hroot := (hcall (sandboxServer {}).backend {} c .root () { peer := none }).1
  exact ⟨hname, hstop, hroot.mpr ⟨Cid, .machine (.vm .root), _, Request.asks_root _ _, rfl, rfl⟩⟩

end Rpc
end Conformance

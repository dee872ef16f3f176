import Mathlib.Data.List.Forall2
import Conformance.Proofs.Rpc.Binding

namespace Conformance

namespace Binding
variable {σ : Type} (b : Binding σ)

/-- Makes calls one after the other, whatever becomes of each. -/
def run : List ((α : Type) × Call α) → σ → List ((α : Type) × Except Failure α) × σ
  | [], s => ([], s)
  | ⟨α, k⟩ :: ks, s =>
    let (x, s) := b.call k s
    let (xs, s) := run ks s
    (⟨α, x⟩ :: xs, s)

end Binding

namespace Rpc

/-- Results that agree: equal values, or a failure of the machine in place and the error from
afar that tells the whole of it. -/
inductive Agree : (α : Type) × Except Failure α → (α : Type) × Except Failure α → Prop
  | ok {α : Type} (x : α) : Agree ⟨α, .ok x⟩ ⟨α, .ok x⟩
  | failed {α : Type} {e e' : Failure} {method : String} (he : e' = .ofRpc (.remote method e.toText))
      (hnear : e.kind = .sut) (hfar : e'.kind = .sut) : Agree ⟨α, .error e⟩ ⟨α, .error e'⟩

/-- An overflow has stopped the machine in place, so that there is no result. -/
def Stopped (x : (α : Type) × Except Failure α) : Prop :=
  ∃ e, x.2 = .error e ∧ e.isOverflow = true

/-- Calls whose messages are neither too long nor too many for an overflow. -/
structure Moderate (ks : List ((α : Type) × Binding.Call α)) : Prop where
  short : ∀ k ∈ ks, ∀ length ∈ k.2.lengths, length ≤ Sandbox.maxLength
  few : (ks.map (·.2.lengths.length)).sum ≤ Sandbox.maxNonces

theorem agree_farFailure {α : Type} {x : Except Failure α} (method : String)
    (hkind : ∀ e, x = .error e → e.kind = .sut) (hgoes : ∀ e, x = .error e → e.isOverflow = false) :
    Agree ⟨α, x⟩ ⟨α, x.mapError (farFailure method)⟩ := by
  cases x with
  | ok x => exact .ok x
  | error e =>
    have hfar : farFailure method e = .ofRpc (.remote method e.toText) := by
      simp [farFailure, Server.faultOf, hgoes e rfl, Error.ofFault]
    exact .failed hfar (hkind e rfl) (by rw [hfar]; rfl)

variable (c : Client) (checks : Checks)

theorem agree_or_stopped {α : Type} {x : Except Failure α} (method : String)
    (hkind : ∀ e, x = .error e → e.kind = .sut) :
    Agree ⟨α, x⟩ ⟨α, x.mapError (farFailure method)⟩ ∨ Stopped ⟨α, x⟩ := by
  by_cases hstop : ∃ e, x = .error e ∧ e.isOverflow = true
  · exact .inr hstop
  · refine .inl (agree_farFailure method hkind (fun e he => ?_))
    cases hover : e.isOverflow with
    | false => rfl
    | true => exact absurd ⟨e, he, hover⟩ hstop

/-- The results of runs agree pair by pair, as far as those of single calls do. -/
theorem Mirrors.run {ks : List ((α : Type) × Binding.Call α)} {r : Remote (Option Sandbox)}
    {s : Sandbox} (h : Mirrors r s) (hks : ∀ k ∈ ks, k.2.Proper) :
    let near := Sandbox.machine.binding.run ks s
    let far := (Remote.binding c (.direct (sandboxServer checks))).run ks r
    List.Forall₂ (fun x y => Agree x y ∨ Stopped x) near.1 far.1 ∧ Mirrors far.2 near.2 := by
  induction ks generalizing r s with
  | nil => exact ⟨.nil, h⟩
  | cons k ks ih =>
    obtain ⟨r', hcall, hmirrors⟩ := h.call c checks (hks k (by simp))
    obtain ⟨hrest, hend⟩ := ih hmirrors (fun k hk => hks k (List.mem_cons_of_mem _ hk))
    have hkind := (Sandbox.keeps_kind.call k.2 (n := 0) (fun _ _ => trivial) trivial s trivial).2
    simp only [Binding.run, hcall]
    exact ⟨.cons (agree_or_stopped k.2.method hkind) hrest, hend⟩

/-- No overflow stops a moderate run. -/
theorem not_stopped_of_moderate {ks : List ((α : Type) × Binding.Call α)} {s : Sandbox} {n : Nat}
    (hs : s.NoncesWithin n) (hshort : ∀ k ∈ ks, ∀ length ∈ k.2.lengths, length ≤ Sandbox.maxLength)
    (hfew : n + (ks.map (·.2.lengths.length)).sum ≤ Sandbox.maxNonces) :
    ∀ x ∈ (Sandbox.machine.binding.run ks s).1, ¬ Stopped x := by
  induction ks generalizing s n with
  | nil => simp [Binding.run]
  | cons k ks ih =>
    simp only [List.map_cons, List.sum_cons] at hfew
    obtain ⟨hs', hreported⟩ := Sandbox.keeps_nonces.call k.2 (hshort k (by simp)) (by omega) s hs
    have hrest := ih hs' (fun k hk => hshort k (List.mem_cons_of_mem _ hk)) (by omega)
    intro x hx
    rcases List.mem_cons.mp hx with rfl | hx
    · rintro ⟨e, he, hover⟩
      rw [hreported e he] at hover
      cases hover
    · exact hrest x hx

/-- A server starts a new sandbox on request, whatever it served before. -/
theorem start_mirrors (test : Option String) (session : Client.Session (Option Sandbox)) :
    ∃ r, (Remote.start c (.direct (sandboxServer checks)) test session).1 = .ok r ∧
      Mirrors r {} := by
  rw [Remote.start_direct]
  exact ⟨_, rfl, rfl, fun root hroot => by cases hroot⟩

/-- The same calls in place and from afar have results that agree, and the handle ends with no
root but the machine's. -/
theorem remote_run_agrees (c : Client) (checks : Checks) (test : Option String)
    (session : Client.Session (Option Sandbox)) (ks : List ((α : Type) × Binding.Call α))
    (hks : ∀ k ∈ ks, k.2.Proper) :
    ∃ r, (Remote.start c (.direct (sandboxServer checks)) test session).1 = .ok r ∧
      let near := Sandbox.machine.binding.run ks {}
      let far := (Remote.binding c (.direct (sandboxServer checks))).run ks r
      List.Forall₂ (fun x y => Agree x y ∨ Stopped x) near.1 far.1 ∧
        (Moderate ks → List.Forall₂ Agree near.1 far.1) ∧
        ∀ root, far.2.root = some root → root = near.2.root := by
  obtain ⟨r, hstart, hmirrors⟩ := start_mirrors c checks test session
  obtain ⟨hagree, hend⟩ := hmirrors.run c checks hks
  refine ⟨r, hstart, hagree, fun hmoderate => ?_, hend.root⟩
  have hgoes := not_stopped_of_moderate (n := 0) (s := {}) (fun _ _ h => by simp at h)
    hmoderate.short (by simpa using hmoderate.few)
  have hboth := (List.forall₂_and_left _ _).mpr ⟨hgoes, hagree⟩
  exact hboth.imp (fun _ _ h => h.2.resolve_right h.1)

/-- An account, a payment to a new key, a change to nobody's account, and the root. -/
def payments : List ((α : Type) × Binding.Call α) :=
  [⟨_, .vm (.createActor .account (.id 100) 10000 .emptyObject)⟩,
   ⟨_, .message { epoch := 1, miner := .id 1000 }
    { recipient := .bls (List.replicate 48 7), sender := .id 100, nonce := 0, value := 5,
      method := Message.send, params := [], gasFeeCap := 2, gasPremium := 3, gasLimit := 2000 }⟩,
   ⟨_, .vm (.setActorState (.id 7) 1 .emptyObject)⟩,
   ⟨_, .vm .root⟩]

theorem remote_run_agrees_payments :
    (Sandbox.machine.binding.run payments {}).1.map (·.2.isOk) = [true, true, false, true] ∧
      ∃ r, (Remote.start (.ofEndpoint "http://127.0.0.1" 30000) (.direct (sandboxServer {})) none
        { peer := none }).1 = .ok r ∧
        List.Forall₂ Agree (Sandbox.machine.binding.run payments {}).1
          ((Remote.binding (.ofEndpoint "http://127.0.0.1" 30000)
            (.direct (sandboxServer {}))).run payments r).1 := by
  have hproper : ∀ k ∈ payments, k.2.Proper := by
    simp [payments, Binding.Call.Proper, Vm.Call.Proper, Message.Proper, Address.Proper]
  have hmoderate : Moderate payments := by
    refine ⟨?_, by decide⟩
    simp only [payments, List.mem_cons, List.not_mem_nil, or_false, forall_eq_or_imp, forall_eq]
    exact ⟨by simp [Binding.Call.lengths], by decide +kernel, by simp [Binding.Call.lengths],
      by simp [Binding.Call.lengths]⟩
  obtain ⟨r, hstart, _, hagree, _⟩ := remote_run_agrees (.ofEndpoint "http://127.0.0.1" 30000) {}
    none { peer := none } payments hproper
  exact ⟨by decide +kernel, r, hstart, hagree hmoderate⟩

end Rpc
end Conformance

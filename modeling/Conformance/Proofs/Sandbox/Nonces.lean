import Conformance.Proofs.Machine.Logged
import Conformance.Proofs.Sandbox.Overflow

namespace Conformance

namespace Machine.Application
variable {σ : Type}

/-- Whether the message came to an outcome and used gas for it. -/
def accepted (e : Application σ) : Bool := e.result.toOption.any (fun o => 0 < o.receipt.gasUsed)

/-- Whether the message came to an outcome without using gas. -/
def rejected (e : Application σ) : Bool := e.result.isOk && !e.accepted

end Machine.Application

namespace Sandbox

open Machine (Error Application Logged)

/-- The nonces that the actor with an ID has used up. -/
def used (s : Sandbox) (id : UInt64) : Nat := (s.actors.get? id).elim 0 (·.nonce.toNat)

/-- The nonces of the messages of an actor that were accepted, in order. What address a message names
its sender by does not matter. -/
def numbers (id : UInt64) (log : List (Application Sandbox)) : List UInt64 :=
  (log.filter (fun e => e.accepted && e.before.resolve e.message.sender = some id)).map
    (·.message.nonce)

variable {s s' : Sandbox} {id : UInt64} {a : Actor}

theorem used_put (s : Sandbox) (i id : UInt64) (b : Actor) :
    (s.putActor i b).used id = if i = id then b.nonce.toNat else s.used id := by
  simp only [used, get?_putActor]
  split <;> rfl

theorem used_of_get? (h : s.actors.get? id = some a) : s.used id = a.nonce.toNat := by
  simp [used, h]

theorem Edit.used (h : Edit True s s') (hs : Sound s) : s'.used = s.used := by
  funext i
  cases h with
  | put ha _ hnonce =>
    rw [used_put]
    split
    · rename_i heq
      rw [← heq, used_of_get? ha, hnonce trivial]
    · rfl
  | @insert _ address b id hins _ hnonce =>
    have hsame : s'.used i = (s.putActor id b).used i := by
      rw [Sandbox.used, actors_of_insertActor hins]
      rfl
    rw [hsame, used_put]
    split
    · rename_i heq
      rw [← heq, Sandbox.used, hs.vacant hins, hnonce trivial]
      rfl
    · rfl
  | store data => rfl
  | move rewardPool burnt _ => rfl
  | tick lastCron => rfl

theorem Changes.used (h : Changes s s') (hs : Sound s) : s'.used = s.used := by
  induction h with
  | refl => rfl
  | tail hmost hlast ih => exact (hlast.used (hs.edits hmost)).trans ih

/-- A message that runs is charged for its inclusion at least. -/
theorem gas_run {sender : UInt64} {m : Message} {available : TokenAmount} {inclusion : Int64}
    {o : Outcome} (hinc : 0 < inclusion.toInt) (hlimit : inclusion ≤ m.gasLimit)
    (h : (s.run sender m available inclusion).1 = .ok o) : 0 < o.receipt.gasUsed := by
  have hlimit := Int64.le_iff_toInt_le.mp hlimit
  rcases run_cases s sender m available inclusion with
    ⟨e, he⟩ | ⟨gasLeft, hleft, ⟨e, he⟩ | ⟨code, gas, s₁, total, hex, htotal, he⟩⟩ <;> rw [he] at h
  · cases h
  · cases h
  · have hleft := Word.sub?_eq_some hleft
    have htotal := Word.add?_eq_some htotal
    obtain ⟨hgas, _⟩ := gas_execute (by omega) (congrArg Prod.fst hex)
    -- Neither the total nor the limit is below the inclusion.
    rcases settle_cases s₁ sender m code (min total m.gasLimit) with
      ⟨e, hs⟩ | ⟨s₂, burn, reward, o', _, ⟨hused, _⟩, hs⟩ <;> rw [hs] at h
    · cases h
    · rw [← Except.ok.inj h, hused, Int64.lt_iff_toInt_lt, Int64.toInt_zero]
      rcases Std.min_eq_or (a := total) (b := m.gasLimit) with hmin | hmin <;> rw [hmin] <;> omega

/-- A message leaves all as it is and uses no gas, or it uses up the next nonce of its sender; then
it is charged if it comes to an outcome and its length is moderate. -/
theorem apply_used (hs : Sound s) (m : Message) (length : Nat) :
    ((apply m length s).2 = s ∧ ∀ o, (apply m length s).1 = .ok o → o.receipt.gasUsed = 0) ∨
    ∃ sender, s.resolve m.sender = some sender ∧ m.nonce.toNat = s.used sender ∧
      (∀ id, (apply m length s).2.used id = if sender = id then s.used id + 1 else s.used id) ∧
      (length ≤ maxLength → ∀ o, (apply m length s).1 = .ok o → 0 < o.receipt.gasUsed) := by
  rcases apply_cases m length s with
    ⟨r, hgas, h⟩ | ⟨inclusion, sender, actor, available, nonce, hinc, hadm, hnext, h⟩ <;> rw [h]
  · exact .inl ⟨rfl, fun o ho => (hgas o ho).1⟩
  · obtain ⟨hsender, hactor, _, hnonce, hlimit, _⟩ := admission_ok hadm
    refine .inr ⟨sender, hsender, hnonce ▸ (used_of_get? hactor).symm, fun id => ?_,
      fun hlen o => ?_⟩
    · have hput : Sound (s.putActor sender { actor with nonce }) := hs.put hactor rfl
      rw [(changes_run _ sender m available inclusion).used hput, used_put]
      split
      · rename_i heq
        rw [← heq, used_of_get? hactor, Word.next?_eq_some hnext]
      · rfl
    · have hinc := inclusionGas?_eq_some (Nat.lt_of_add_left_lt (fits_of_le hlen)) hinc
      exact gas_run (by omega) hlimit

/-- No call gives back a nonce. -/
theorem used_call (hs : Sound s) {α : Type} (c : Machine.Call α) (id : UInt64) :
    s.used id ≤ (machine.call c s).2.used id := by
  cases c with
  | vm c => exact Nat.le_of_eq (congrFun ((changes_vmCall c s).used hs) id).symm
  | apply epoch miner m length =>
    rcases apply_used hs m length with ⟨hsame, _⟩ | ⟨sender, _, _, hused, _⟩
    · exact Nat.le_of_eq (congrArg (used · id) hsame).symm
    · refine Nat.le_trans ?_ (Nat.le_of_eq (hused id).symm)
      split
      · exact Nat.le_succ _
      · exact Nat.le_refl _
  | reward epoch miner penalty gasReward tickets =>
    exact Nat.le_of_eq (congrFun ((changes_reward miner penalty gasReward tickets s).used hs) id).symm
  | cron epoch randomness => exact Nat.le_refl _

theorem used_of_ran (hs : Sound s) {log : List (Application Sandbox)} (h : machine.Ran s s' log)
    (id : UInt64) : s.used id ≤ s'.used id := by
  refine (h.kept_state (P := fun t => Sound t ∧ s.used id ≤ t.used id) (fun c t ht => ?_)
    ⟨hs, Nat.le_refl _⟩).2
  exact ⟨ht.1.edits (edits_call c t), Nat.le_trans ht.2 (used_call ht.1 c id)⟩

theorem numbers_append (id : UInt64) (log : List (Application Sandbox)) (e : Application Sandbox) :
    numbers id (log ++ [e]) = numbers id log ++
      if e.accepted && e.before.resolve e.message.sender = some id then [e.message.nonce]
      else [] := by
  rw [numbers, List.filter_append, List.map_append, List.filter_cons, List.filter_nil]
  split <;> rfl

section Step
variable (hs : Sound s) (epoch : Int64) (miner : Address) (m : Message)
include hs

/-- An application is not accepted and leaves all as it is, or it uses up the next nonce of its
sender; then a message of moderate length is accepted if it does not fail. -/
theorem application_cases (length : Nat) :
    let e := machine.application epoch miner m length s
    (e.after = s ∧ e.accepted = false) ∨
    ∃ sender, s.resolve m.sender = some sender ∧ m.nonce.toNat = s.used sender ∧
      (∀ id, e.after.used id = if sender = id then s.used id + 1 else s.used id) ∧
      (length ≤ maxLength → e.accepted = e.result.isOk) := by
  intro e
  have hresult : e.result = (apply m length s).1.mapError .ofMachine := rfl
  rcases apply_used hs m length with ⟨hsame, hgas⟩ | ⟨sender, hsender, hnonce, hused, hgas⟩
  · refine .inl ⟨hsame, ?_⟩
    cases hr : (apply m length s).1 with
    | error e => simp [Application.accepted, hresult, hr, Except.toOption]
    | ok o => simp [Application.accepted, hresult, hr, Except.toOption, hgas o hr]
  · refine .inr ⟨sender, hsender, hnonce, hused, fun hlen => ?_⟩
    cases hr : (apply m length s).1 with
    | error e => simp [Application.accepted, hresult, hr, Except.toOption, Except.isOk, Except.toBool]
    | ok o =>
      simp [Application.accepted, hresult, hr, Except.toOption, hgas hlen o hr, Except.isOk,
        Except.toBool]

variable {length : Nat} (hlen : length ≤ maxLength)
include hlen

/-- What an application makes of the nonces of one actor: nothing; or one more is used up, by a
message that is accepted or by one that fails. -/
theorem numbers_application (log : List (Application Sandbox)) (id : UInt64) :
    let e := machine.application epoch miner m length s
    (e.after.used id = s.used id ∧ numbers id (log ++ [e]) = numbers id log) ∨
    e.after.used id = s.used id + 1 ∧
      (e.result.isOk = false ∧ numbers id (log ++ [e]) = numbers id log ∨
        m.nonce.toNat = s.used id ∧ numbers id (log ++ [e]) = numbers id log ++ [m.nonce]) := by
  intro e
  have hbefore : e.before = s := rfl
  have hmessage : e.message = m := rfl
  rw [numbers_append, hbefore, hmessage]
  rcases application_cases hs epoch miner m length with
    ⟨hsame, hrefused⟩ | ⟨sender, hsender, hnonce, hused, haccepted⟩
  · refine .inl ⟨congrArg (used · id) hsame, ?_⟩
    rw [hrefused, Bool.false_and, if_neg Bool.false_ne_true, List.append_nil]
  · rw [hused id, haccepted hlen, hsender]
    by_cases heq : sender = id
    · subst heq
      rw [if_pos rfl]
      refine .inr ⟨rfl, ?_⟩
      cases e.result.isOk with
      | false => exact .inl ⟨rfl, List.append_nil _⟩
      | true => exact .inr ⟨hnonce, by simp⟩
    · exact .inl ⟨if_neg heq, by simp [heq]⟩

theorem after_of_rejected :
    let e := machine.application epoch miner m length s
    e.rejected = true → e.after = s := by
  intro e hrejected
  simp only [Application.rejected, Bool.and_eq_true, Bool.not_eq_true'] at hrejected
  rcases application_cases hs epoch miner m length with ⟨hsame, _⟩ | ⟨_, _, _, _, haccepted⟩
  · exact hsame
  · have hok := hrejected.1
    rw [← haccepted hlen, hrejected.2] at hok
    cases hok

end Step

/-- Numbers in ascending order, all below a bound. -/
structure Ascending (ns : List UInt64) (bound : Nat) : Prop where
  sorted : ns.Pairwise (· < ·)
  below : ∀ n ∈ ns, n.toNat < bound

namespace Ascending
variable {ns : List UInt64} {bound : Nat}

theorem skip (h : Ascending ns bound) : Ascending ns (bound + 1) :=
  ⟨h.sorted, fun n hn => Nat.lt_succ_of_lt (h.below n hn)⟩

theorem next {n : UInt64} (h : Ascending ns bound) (hn : n.toNat = bound) :
    Ascending (ns ++ [n]) (bound + 1) := by
  constructor
  · refine List.pairwise_append.mpr ⟨h.sorted, List.pairwise_singleton _ _, fun k hk l hl => ?_⟩
    rw [List.mem_singleton.mp hl, UInt64.lt_iff_toNat_lt, hn]
    exact h.below k hk
  · intro k hk
    rcases List.mem_append.mp hk with hk | hk
    · exact Nat.lt_succ_of_lt (h.below k hk)
    · rw [List.mem_singleton.mp hk, hn]
      exact Nat.lt_succ_self _

theorem nodup (h : Ascending ns bound) : ns.Nodup := h.sorted.imp UInt64.ne_of_lt

end Ascending

/-- What holds of the nonces in a run that got this far. -/
structure Numbered (t : Logged Sandbox) : Prop where
  sound : Sound t.state
  within : t.state.NoncesWithin t.log.length
  ascending : ∀ id, Ascending (numbers id t.log) (t.state.used id)
  complete : (∀ e ∈ t.log, e.result.isOk = true) →
    ∀ id, (numbers id t.log).map UInt64.toNat = List.range (t.state.used id)
  traceless : ∀ e ∈ t.log, e.rejected = true → e.after = e.before
  quiet : t.log.length ≤ maxNonces →
    ∀ e ∈ t.log, ∀ f, e.result = .error f → f.isOverflow = false

theorem numbered_fresh : Numbered ⟨{}, []⟩ where
  sound := sound_fresh
  within id a h := by simp at h
  ascending id := ⟨.nil, fun n h => by cases h⟩
  complete _ id := rfl
  traceless e h := by cases h
  quiet _ e h := by cases h

namespace Numbered
variable {t : Logged Sandbox}

/-- What leaves nonces alone and applies nothing. -/
theorem changes (h : Numbered t) (hchanges : Changes t.state s') :
    Numbered { t with state := s' } := by
  have hused := Changes.used hchanges h.sound
  refine { h with sound := ?_, within := ?_, ascending := ?_, complete := ?_ }
  · exact h.sound.edits hchanges
  · exact h.within.changes hchanges
  · simpa only [hused] using h.ascending
  · simpa only [hused] using h.complete

theorem applied (h : Numbered t) (epoch : Int64) (miner : Address) (m : Message) {length : Nat}
    (hlen : length ≤ maxLength) : Numbered (machine.logged.apply epoch miner m length t).2 := by
  let e := machine.application epoch miner m length t.state
  change Numbered ⟨e.after, t.log ++ [e]⟩
  have hnumbers := numbers_application h.sound epoch miner m hlen t.log
  constructor <;> dsimp only
  case sound => exact h.sound.edits (edits_apply m length t.state)
  case within =>
    rw [List.length_append]
    exact h.within.apply m length
  case ascending =>
    intro id
    have hold := h.ascending id
    rcases hnumbers id with ⟨hused, hsame⟩ | ⟨hused, ⟨_, hsame⟩ | ⟨hnonce, hmore⟩⟩
    · rwa [hused, hsame]
    · rw [hused, hsame]
      exact hold.skip
    · rw [hused, hmore]
      exact hold.next hnonce
  case complete =>
    intro hok id
    have hold := h.complete (fun d hd => hok d (List.mem_append_left _ hd)) id
    rcases hnumbers id with ⟨hused, hsame⟩ | ⟨hused, ⟨hfail, _⟩ | ⟨hnonce, hmore⟩⟩
    · rw [hsame, hused, hold]
    · exact absurd (hfail.symm.trans (hok e (by simp))) Bool.false_ne_true
    · rw [hmore, hused, List.map_append, hold, List.range_succ, List.map_singleton, hnonce]
  case traceless =>
    have hnew := after_of_rejected h.sound epoch miner m hlen
    exact List.forall_mem_append.mpr ⟨h.traceless, List.forall_mem_singleton.mpr hnew⟩
  case quiet =>
    intro hcount
    rw [List.length_append, List.length_singleton] at hcount
    have hkept := keeps_nonces.apply t.log.length epoch miner m length hlen hcount t.state h.within
    exact List.forall_mem_append.mpr
      ⟨h.quiet (Nat.le_of_succ_le hcount), List.forall_mem_singleton.mpr hkept.2⟩

end Numbered

theorem numbered_of_ran {log : List (Application Sandbox)} (h : machine.Ran {} s log)
    (hlength : ∀ e ∈ log, e.length ≤ maxLength) : Numbered ⟨s, log⟩ := by
  -- A log only grows: where all lengths in it are moderate in the end, they were so all along.
  refine h.kept (P := fun t => (∀ e ∈ t.log, e.length ≤ maxLength) → Numbered t)
    (fun c t ht hlength => ?_) (fun _ => numbered_fresh) hlength
  cases c with
  | vm c =>
    change ∀ e ∈ (machine.logged.toVm.call c t).2.log, _ at hlength
    change Numbered (machine.logged.toVm.call c t).2
    rw [Machine.logged_vmCall] at hlength ⊢
    exact (ht hlength).changes (changes_vmCall c t.state)
  | apply epoch miner m length =>
    have hold : ∀ e ∈ t.log, e.length ≤ maxLength :=
      fun e he => hlength e (List.mem_append_left _ he)
    exact (ht hold).applied epoch miner m
      (hlength (machine.application epoch miner m length t.state) (List.mem_append_right _ (by simp)))
  | reward epoch miner penalty gasReward tickets =>
    exact (ht hlength).changes (changes_reward miner penalty gasReward tickets t.state)
  | cron epoch randomness => exact (ht hlength).changes (.single (.tick _))

/-- In a run no nonce of an actor is accepted twice, and where no application fails the accepted
nonces count up to the actor's own. What is rejected leaves no trace, and no overflow stops a
message. -/
theorem nonces_of_ran {log : List (Application Sandbox)} (h : machine.Ran {} s log)
    (hlength : ∀ e ∈ log, e.length ≤ maxLength) (hcount : log.length ≤ maxNonces) :
    (∀ id, (numbers id log).Nodup) ∧
    ((∀ e ∈ log, e.result.isOk = true) →
      ∀ id, (numbers id log).map UInt64.toNat = List.range (s.used id)) ∧
    (∀ e ∈ log, e.rejected = true → e.after = e.before) ∧
    ∀ e ∈ log, ∀ f, e.result = .error f → f.isOverflow = false := by
  have hrun := numbered_of_ran h hlength
  exact ⟨fun id => (hrun.ascending id).nodup, hrun.complete, hrun.traceless, hrun.quiet hcount⟩

/-- The first payment of an actor, to a key that nobody has used. -/
def order : Message where
  recipient := .bls [1]
  sender := .id 100
  nonce := 0
  value := 5
  method := Message.send
  params := []
  gasFeeCap := 2
  gasPremium := 3
  gasLimit := 2000

/-- The first payment once more, and the next one, sent under the actor's key. -/
def orders : Block where
  bls := [order]
  secp := [⟨{ order with sender := .bls [7], nonce := 1 }, ⟨.bls, []⟩⟩]
  miner := .id 1000
  tickets := 1

/-- A payer, who pays once alone and then in a tip-set. -/
theorem nonces_of_ran_orders : ∃ s log, machine.Ran {} s log ∧
    log.map (fun e => (e.message.nonce, e.accepted)) = [(0, true), (0, false), (1, true)] ∧
    (numbers 100 log).map UInt64.toNat = List.range (s.used 100) ∧ s.used 100 = 2 := by
  obtain ⟨s, log, hran, hlength, hcount, hok, hlog, hused⟩ : ∃ s log, machine.Ran {} s log ∧
      (∀ e ∈ log, e.length ≤ maxLength) ∧ log.length ≤ maxNonces ∧
      (∀ e ∈ log, e.result.isOk = true) ∧
      log.map (fun e => (e.message.nonce, e.accepted)) = [(0, true), (0, false), (1, true)] ∧
      s.used 100 = 2 :=
    ⟨_, _, ((Machine.Ran.start.call
        (.vm (.createActor .account (.bls [7]) 100000 .emptyObject))).drive
        (.message { epoch := 1, miner := .id 1000 } order)).drive (.tipSet [orders] 2 .zero),
      by decide +kernel⟩
  exact ⟨s, log, hran, hlog, (nonces_of_ran hran hlength hcount).2.1 hok 100, hused⟩

end Sandbox
end Conformance

import Conformance.Proofs.Sandbox.Settlement
import Conformance.Proofs.Sandbox.Verdict

namespace Conformance.Sandbox

open Machine (Error)

variable {s s' : Sandbox} {id : UInt64} {a : Actor} {m : Message}

theorem resolve_putActor {b : Actor} (ha : s.actors.get? id = some a) (address : Address) :
    (s.putActor id b).resolve address = s.resolve address := by
  cases address with
  | id n =>
    simp only [resolve, SortedMap.contains, get?_putActor]
    split
    · rename_i heq
      simp [← heq, ha]
    · rfl
  | _ => rfl

/-- What a transfer that succeeds does to the actors. Both may be the same. -/
structure Transferred (s : Sandbox) (sender receiver : UInt64) (value : TokenAmount)
    (s' : Sandbox) : Prop where
  paid : ∃ a, s.actors.get? sender = some a ∧ ∃ balance,
    s'.actors.get? sender = some { a with balance } ∧
    balance + value = a.balance + if receiver = sender then value else 0
  credited : receiver ≠ sender → ∃ c, s.actors.get? receiver = some c ∧
    s'.actors.get? receiver = some { c with balance := c.balance + value }
  others : ∀ i, i ≠ sender → i ≠ receiver → s'.actors.get? i = s.actors.get? i

theorem transferred_of_ok {sender receiver : UInt64} {value : TokenAmount}
    (h : s.transfer sender receiver value = (.ok (), s')) :
    Transferred s sender receiver value s' := by
  obtain ⟨a, c, ha, hvalue, hc, rfl⟩ := transfer_ok h
  constructor
  case paid =>
    refine ⟨a, ha, ?_⟩
    by_cases hself : receiver = sender
    · subst hself
      rw [get?_putActor_self] at hc
      obtain rfl := Option.some.inj hc
      refine ⟨_, get?_putActor_self _ _ _, ?_⟩
      rw [if_pos rfl, Nat.sub_add_cancel hvalue]
    · refine ⟨a.balance - value, ?_, ?_⟩
      · rw [get?_putActor_ne _ _ (Ne.symm hself), get?_putActor_self]
      · rw [if_neg hself]
        exact Nat.sub_add_cancel hvalue
  case credited =>
    intro hother
    rw [get?_putActor_ne _ _ hother] at hc
    exact ⟨c, hc, get?_putActor_self _ _ _⟩
  case others =>
    intro i hpayer hpayee
    rw [get?_putActor_ne _ _ hpayee, get?_putActor_ne _ _ hpayer]

theorem recorded_transfer {sender receiver : UInt64} {value : TokenAmount}
    (h : s.transfer sender receiver value = (.ok (), s')) :
    s'.addresses = s.addresses ∧ s'.nextId = s.nextId := by
  obtain ⟨a, c, _, _, _, rfl⟩ := transfer_ok h
  exact ⟨rfl, rfl⟩

theorem resolve_transfer {sender receiver : UInt64} {value : TokenAmount}
    (h : s.transfer sender receiver value = (.ok (), s')) (address : Address) :
    s'.resolve address = s.resolve address := by
  obtain ⟨a, c, ha, _, hc, rfl⟩ := transfer_ok h
  rw [resolve_putActor hc, resolve_putActor ha]

/-- Burnt and held for the miner, the gas costs its price. -/
theorem fee_eq (m : Message) (gas : Nat) : burnRate m * gas + tipRate m * gas = gas * m.price := by
  rw [← Nat.add_mul, burnRate_add_tipRate, Nat.mul_comm]

/-- The price of the gas is burnt up to the base fee and held for the miner beyond it. -/
theorem settle_ok {sender : UInt64} {code : ExitCode} {gasUsed : Int64} {o : Outcome} {gas : Nat}
    (hgas : gasUsed.toInt = gas) (h : s.settle sender m code gasUsed = (.ok o, s')) :
    ∃ a, s.actors.get? sender = some a ∧ gas * m.price ≤ a.balance ∧
      o = { receipt := { exitCode := code, returnValue := [], gasUsed }, penalty := 0,
            reward := gas * tipRate m } ∧
      s' = { s.putActor sender { a with balance := a.balance - gas * m.price } with
        burnt := s.burnt + gas * burnRate m, rewardPool := s.rewardPool + gas * tipRate m } := by
  unfold settle at h
  simp only [Word.bits_of_toInt hgas, fee_eq] at h
  split at h
  · cases h
  · rename_i s₁ hd
    cases h
    obtain ⟨a, ha, hle, rfl⟩ := debit_ok hd
    rw [Nat.mul_comm (tipRate m), Nat.mul_comm (burnRate m)]
    exact ⟨a, ha, hle, rfl, rfl⟩

theorem actor?_putActor {b : Actor} {address : Address} (ha : s.actors.get? id = some a)
    (haddress : s.resolve address ≠ some id) :
    (s.putActor id b).actor? address = s.actor? address := by
  rw [actor?, actor?, resolve_putActor ha]
  cases hr : s.resolve address with
  | none => rfl
  | some r =>
    have hne : id ≠ r := fun heq => haddress (heq ▸ hr)
    rw [Option.bind_some, Option.bind_some, get?_putActor, if_neg hne]

/-- Whoever was there stays as he is when an address is located. -/
theorem get?_locate (hs : Sound s) {address : Address} {r : UInt64}
    (h : s.locate address = .ok (r, s')) (ha : s.actors.get? id = some a) :
    s'.actors.get? id = some a := by
  rcases locate_cases h with ⟨rfl, _⟩ | hins
  · exact ha
  · have hnew : r ≠ id := by
      rintro rfl
      cases (hs.vacant hins).symm.trans ha
    rw [actors_of_insertActor hins, SortedMap.get?_insert, if_neg hnew, ha]

/-- Keys and the next ID change for a new actor only. -/
theorem recorded_locate {address : Address} {r : UInt64} (h : s.locate address = .ok (r, s'))
    (hkind : s.resolve address = none → address.isId = false) :
    (s.resolve address = none → s'.addresses = s.addresses.insert address s.nextId ∧
      s'.nextId.toNat = s.nextId.toNat + 1) ∧
    (s.resolve address ≠ none → s'.addresses = s.addresses ∧ s'.nextId = s.nextId) := by
  rcases locate_cases h with ⟨rfl, hid⟩ | hins
  · exact ⟨fun hnone => (by cases hnone.symm.trans hid), fun _ => ⟨rfl, rfl⟩⟩
  · have hnext := nextId_of_insertActor hins
    obtain ⟨hnone, hid, after, _, rfl⟩ := insertActor_ok hins
    refine ⟨fun _ => ?_, fun hsome => absurd hnone hsome⟩
    have hkey := hkind hnone
    rw [Address.id?_of_key hkey, Option.getD_none] at hid
    subst hid
    rw [hnext]
    exact ⟨by simp [hkey], by omega⟩

/-- Verdict and gas depend on the recipient alone. -/
theorem verdict_congr (h : s'.resolve m.recipient = s.resolve m.recipient)
    (available : TokenAmount) (inclusion : Nat) :
    s'.verdict m available inclusion = s.verdict m available inclusion := by
  unfold verdict transferGas
  rw [h]

theorem gasFor_congr (h : s'.resolve m.recipient = s.resolve m.recipient) (inclusion : Nat)
    (code : ExitCode) : s'.gasFor m inclusion code = s.gasFor m inclusion code := by
  unfold gasFor transferGas
  rw [h]

/-- Carrying out a message goes no further than actors and their keys. -/
theorem Course.frame {sender : UInt64} {left : Int} {code : ExitCode} {x : ExitCode × Int64}
    (h : Course s sender m left code (.ok x) s') :
    s' = { s with actors := s'.actors, addresses := s'.addresses, nextId := s'.nextId } := by
  cases h with
  | stopped => rfl
  | sent _ hloc _ ht =>
    obtain ⟨a, c, _, _, _, rfl⟩ := transfer_ok ht
    rcases locate_cases hloc with ⟨rfl, _⟩ | hins
    · rfl
    · obtain ⟨_, _, after, _, rfl⟩ := insertActor_ok hins
      rfl

end Conformance.Sandbox

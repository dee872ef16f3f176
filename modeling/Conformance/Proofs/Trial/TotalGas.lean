import Conformance.Proofs.Receipt
import Conformance.Proofs.Sandbox.Metering
import Conformance.Proofs.Trial.Replay

namespace Conformance.Trial

open Receipt (toInt_totalGas totalGas_of_perm totalGas_le_of_subperm)
open Sandbox (Sound Receipted machine)
open TipSet (entries firsts)

variable {σ α : Type} {t : Trial σ} {r : Fixture.Recorder} {w : Fixture.Writer}

/-- A recording takes what it is shown, and nothing can be wrong with it. -/
theorem observe_recording (h : t.oracle = .recording r w) (gas : Int64) (root : Cid) :
    observe gas root t = (.ok (), { t with
      oracle := .recording (r.record gas root) w, applies := t.applies + 1 }) := by
  simp only [observe, h, Fixture.Oracle.observe]
  cases t.checks.gas <;> cases t.checks.stateRoot <;> rfl

/-- So an application that succeeds is recorded and passes. -/
theorem application_recording {apply : ExecutionContext → Op σ α} {gas : α → Int64}
    {root : α → Cid} {x : α} {s : σ} (horacle : t.oracle = .recording r w)
    (h : apply t.context t.vm = (.ok x, s)) :
    application apply gas root t = (.ok x, { t with
      vm := s, oracle := .recording (r.record (gas x) (root x)) w, applies := t.applies + 1 }) := by
  have hseen := observe_recording (t := { t with vm := s }) horacle (gas x) (root x)
  rw [application_ok h, hseen]
  rfl

/-- The total of receipts without negative gas is their exact sum, as far as a word holds it. It is the
same in any order, and receipts that are left out do not make it greater. In every state of a run a
tip-set that succeeds has a receipt for each message that occurs first, with no gas if the message
was rejected and no more than its limit otherwise. So a trial that records adds their sum to its
entry, with the root after the tip-set. -/
theorem totalGas_eq_sum :
    (∀ (receipts : List Receipt) (root : Cid), (∀ r ∈ receipts, 0 ≤ r.gasUsed) →
      (TipSetResult.totalGasUsed ⟨receipts, root⟩).toInt =
        min (2 ^ 63 - 1) (receipts.map (·.gasUsed.toInt)).sum ∧
      ∀ receipts' root',
        (receipts'.Perm receipts → TipSetResult.totalGasUsed ⟨receipts', root'⟩ =
          TipSetResult.totalGasUsed ⟨receipts, root⟩) ∧
        (receipts'.Subperm receipts → TipSetResult.totalGasUsed ⟨receipts', root'⟩ ≤
          TipSetResult.totalGasUsed ⟨receipts, root⟩)) ∧
    ∀ s log, machine.Ran {} s log → ∀ blocks epoch randomness receipts s',
      (∀ e ∈ entries blocks, e.length ≤ 2 ^ 62) →
      machine.binding.applyTipSet blocks epoch randomness s = (.ok receipts, s') →
      let result : TipSetResult := ⟨receipts, s'.root⟩
      List.Forall₂ (Receipted s) (firsts (entries blocks)) receipts ∧
      (∀ r ∈ receipts, 0 ≤ r.gasUsed) ∧
      result.totalGasUsed.toInt = min (2 ^ 63 - 1) (receipts.map (·.gasUsed.toInt)).sum ∧
      ∀ (t : Trial Sandbox) r w, t.vm = s → t.context.epoch = epoch → t.oracle = .recording r w →
        Trial.applyTipSet machine.binding blocks randomness t = (.ok result, { t with
          vm := s', applies := t.applies + 1,
          oracle := .recording { r with entry := r.entry.add result.totalGasUsed s'.root } w }) := by
  refine ⟨fun receipts root hgas => ⟨toInt_totalGas hgas, fun receipts' root' =>
    ⟨totalGas_of_perm hgas, totalGas_le_of_subperm hgas⟩⟩, ?_⟩
  intro s log hran blocks epoch randomness receipts s' hlen h result
  have hs : Sound s := Sandbox.sound_fresh.edits (Sandbox.edits_of_ran hran)
  have hreceipted := Sandbox.receipted_of_tipSet hs hlen h
  have hgas := Sandbox.nonneg_of_receipted hreceipted
  refine ⟨hreceipted, hgas, toInt_totalGas hgas, ?_⟩
  rintro t r w rfl rfl horacle
  have hroot : machine.binding.root s' = (.ok s'.root, s') := rfl
  have hresult : machine.binding.tipSet blocks t.context.epoch randomness t.vm =
      (.ok result, s') := (Op.bind_ok h).trans (Op.bind_ok hroot)
  exact application_recording horacle hresult

/-- A trial that records, of a machine with one payer. -/
def bookkept : Trial Sandbox :=
  start "T1" {} { epoch := 3, miner := .id 1000 } {} (.ofMode .record {} clerk "T1")
    (machine.call (.vm (.createActor .account (.bls [7]) 100000 .emptyObject)) {}).2

/-- Of three messages one is dropped and one is rejected, so the recorded gas is that of the other. -/
theorem totalGas_eq_sum_offers : ∃ receipts s' t,
    machine.Ran {} bookkept.vm [] ∧
    machine.binding.applyTipSet Sandbox.offers 3 .zero bookkept.vm = (.ok receipts, s') ∧
    receipts.map (fun r => (r.exitCode, r.gasUsed)) = [(.ok, 1248), (.senderStateInvalid, 0)] ∧
    Trial.applyTipSet machine.binding Sandbox.offers .zero bookkept =
      (.ok ⟨receipts, s'.root⟩, t) ∧
    t.oracle = .recording { test := "T1", entry := ⟨[1248], [s'.root]⟩ } clerk := by
  have hran : machine.Ran {} bookkept.vm [] :=
    Machine.Ran.start.call (.vm (.createActor .account (.bls [7]) 100000 .emptyObject))
  have hlen : ∀ e ∈ entries Sandbox.offers, e.length ≤ 2 ^ 62 := by decide +kernel
  have hout : ∀ out, out = (machine.binding.applyTipSet Sandbox.offers 3 .zero bookkept.vm).1 →
      out.toOption.map (fun rs => rs.map (fun r => (r.exitCode, r.gasUsed))) =
        some [(.ok, 1248), (.senderStateInvalid, 0)] := by
    rintro _ rfl
    decide +kernel
  rcases hrun : machine.binding.applyTipSet Sandbox.offers 3 .zero bookkept.vm with
    ⟨e | receipts, s'⟩
  · cases hout (.error e) (congrArg Prod.fst hrun).symm
  have hreceipts := Option.some.inj (hout (.ok receipts) (congrArg Prod.fst hrun).symm)
  obtain ⟨_, _, htotal, hrecords⟩ :=
    totalGas_eq_sum.2 bookkept.vm [] hran Sandbox.offers 3 .zero receipts s' hlen hrun
  have hgases : receipts.map (·.gasUsed.toInt) = [1248, 0] := by
    have hpairs := congrArg (List.map (fun p => p.2.toInt)) hreceipts
    rwa [List.map_map] at hpairs
  rw [hgases] at htotal
  have hgas : TipSetResult.totalGasUsed ⟨receipts, s'.root⟩ = 1248 :=
    Int64.toInt_inj.mp (htotal.trans (by decide))
  refine ⟨receipts, s', _, hran, rfl, hreceipts,
    hrecords bookkept { test := "T1" } clerk rfl rfl rfl, ?_⟩
  rw [hgas]
  rfl

end Conformance.Trial

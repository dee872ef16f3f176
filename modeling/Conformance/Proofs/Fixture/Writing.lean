import Conformance.Proofs.FileTree
import Conformance.Fixture.Writer

namespace Conformance.Fixture

/-- What is staged never has the extension of what is kept. -/
theorem json_ne_tempName (stem test : String) : stem ++ ".json" ≠ tempName test := by
  intro heq
  have hlast := congrArg (fun name => name.toList.getLast?) heq
  unfold tempName at hlast
  simp only at hlast
  split at hlast <;> simp [String.toList_append] at hlast

theorem fileName_ne_tempName (test test' : String) : fileName test ≠ tempName test' :=
  json_ne_tempName _ _

theorem Channel.folder_inj {c d : Channel} (h : c.folder = d.folder) : c = d := by
  cases c <;> cases d <;> first | rfl | exact absurd h (by decide)

namespace Writer
variable {w : Writer} {test : String} {e : Entry} {files files' : FileTree} {c d : Channel}

/-- Where a name lies in a channel. -/
def place (w : Writer) (c : Channel) (name : String) : Path := (w.folder c).path ++ [name]

theorem place_inj {m n : String} : w.place c m = w.place d n ↔ c = d ∧ m = n := by
  constructor
  · intro h
    simp only [place, folder, Folder.child, List.append_assoc, List.cons_append, List.nil_append,
      List.append_cancel_left_eq, List.cons.injEq, and_true] at h
    exact ⟨Channel.folder_inj h.1, h.2⟩
  · rintro ⟨rfl, rfl⟩
    rfl

theorem place_below (w : Writer) (c : Channel) (name : String) :
    w.root.path <+: w.place c name ∧ w.place c name ≠ w.root.path := by
  constructor
  · simp [place, folder, Folder.child]
  · intro heq
    have hlength := congrArg List.length heq
    simp [place, folder, Folder.child] at hlength

/-- A name in a channel is no directory on the way to a channel. -/
theorem not_place_prefix {name : String} : ¬ w.place c name <+: (w.folder d).path := by
  intro h
  have hlength := h.length_le
  simp [place, folder, Folder.child] at hlength

@[simp] theorem temp_path : (w.temp c test).path = w.place c (tempName test) := rfl

/-- What lies below a writer's folder after a write of an entry, and elsewhere. -/
structure Written (w : Writer) (test : String) (e : Entry) (before after : FileTree) : Prop where
  file : ∀ c, after.get? (w.place c (fileName test)) = some (.file (w.body test e c))
  temp : ∀ c, after.get? (w.place c (tempName test)) = none
  folder : ∀ c q, q <+: (w.folder c).path → after.get? q = some .directory
  other : ∀ q, (∀ c, q ≠ w.place c (fileName test) ∧ q ≠ w.place c (tempName test) ∧
    ¬ q <+: (w.folder c).path) → after.get? q = before.get? q

theorem stage_ok (h : w.stage test e c files = (.ok (), files')) (q : Path) :
    files'.get? q = if q = w.place c (tempName test) then some (.file (w.body test e c))
      else if q <+: (w.folder c).path then some .directory else files.get? q := by
  unfold stage at h
  split at h
  · cases h
  · rename_i made hmake
    split at h
    · cases h
    · rename_i filled hfill
      cases h
      rw [FileTree.writeFile_ok hfill, temp_path]
      by_cases hq : q = w.place c (tempName test)
      · rw [if_pos hq, if_pos hq]
      · rw [if_neg hq, if_neg hq]
        exact FileTree.createDirectories_ok hmake q

theorem stageAll_ok (h : w.stageAll test e [] Channel.all files = (.ok (), files')) :
    ∃ mid, w.stage test e .gas files = (.ok (), mid) ∧
      w.stage test e .stateRoot mid = (.ok (), files') := by
  simp only [Channel.all, stageAll] at h
  split at h
  · cases h
  · rename_i mid hgas
    split at h
    · cases h
    · rename_i last hroot
      cases h
      exact ⟨mid, hgas, hroot⟩

theorem commitAll_ok (h : w.commitAll test Channel.all files = (.ok (), files')) :
    ∃ mid, files.renameFile (w.place .gas (tempName test)) (w.place .gas (fileName test)) = some mid ∧
      mid.renameFile (w.place .stateRoot (tempName test)) (w.place .stateRoot (fileName test)) =
        some files' := by
  simp only [Channel.all, commitAll] at h
  split at h
  · cases h
  · rename_i mid hgas
    split at h
    · cases h
    · rename_i last hroot
      cases h
      exact ⟨mid, hgas, hroot⟩

theorem write_ok (h : w.write test e files = (.ok (), files')) : Written w test e files files' := by
  unfold write at h
  split at h
  · cases h
  · rename_i staged hstage
    obtain ⟨first, hgas, hroot⟩ := stageAll_ok hstage
    obtain ⟨moved, hmoveGas, hmoveRoot⟩ := commitAll_ok h
    obtain ⟨gas, hreadGas, hmoved⟩ := FileTree.renameFile_ok hmoveGas
    obtain ⟨roots, hreadRoots, hfinal⟩ := FileTree.renameFile_ok hmoveRoot
    have hne : fileName test ≠ tempName test := fileName_ne_tempName test test
    obtain rfl : w.body test e .gas = gas := by
      rw [stage_ok hroot, stage_ok hgas] at hreadGas
      simpa [place_inj, not_place_prefix] using hreadGas
    obtain rfl : w.body test e .stateRoot = roots := by
      rw [hmoved, stage_ok hroot] at hreadRoots
      simpa [place_inj] using hreadRoots
    have hview := fun q => by
      have := hfinal q
      rwa [hmoved, stage_ok hroot, stage_ok hgas] at this
    refine ⟨fun c => ?_, fun c => ?_, fun c q hq => ?_, fun q hq => ?_⟩
    · rw [hview]
      cases c <;> simp [place_inj]
    · rw [hview]
      cases c <;> simp [place_inj, hne.symm]
    · have hplace : ∀ d name, q ≠ w.place d name := by
        rintro d name rfl
        exact not_place_prefix hq
      rw [hview]
      cases c <;> simp [hplace, hq]
    · rw [hview]
      have hqGas := hq .gas
      have hqRoot := hq .stateRoot
      simp [hqGas, hqRoot]

end Writer
end Conformance.Fixture

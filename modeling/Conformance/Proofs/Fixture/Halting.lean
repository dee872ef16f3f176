import Conformance.Proofs.Fixture.Writing

namespace Conformance.Fixture

/-- The channels whose turn comes before that of a channel. -/
def Channel.before (c : Channel) : List Channel := Channel.all.takeWhile (· ≠ c)

theorem Channel.all_eq (c : Channel) : ∃ rest, Channel.all = c.before ++ c :: rest := by
  cases c
  · exact ⟨[.stateRoot], rfl⟩
  · exact ⟨[], rfl⟩

theorem Channel.mem_all (c : Channel) : c ∈ Channel.all := by
  obtain ⟨rest, hall⟩ := c.all_eq
  rw [hall]
  exact List.mem_append_right _ List.mem_cons_self

theorem Channel.nodup_all : Channel.all.Nodup := by decide

/-- The steps of a write that can fail: to make the folder of a channel, to stage its file there,
and to put that in place. -/
inductive Halt
  | making (c : Channel)
  | staging (c : Channel)
  | placing (c : Channel)
  deriving DecidableEq, Repr

namespace Halt

/-- The steps in their order. -/
def all : List Halt :=
  Channel.all.flatMap (fun c => [.making c, .staging c]) ++ Channel.all.map .placing

/-- The steps before a step. -/
def earlier (h : Halt) : List Halt := all.takeWhile (· ≠ h)

/-- The channels that have been staged when a write stops at a step. -/
def staged : Halt → List Channel
  | making c => c.before
  | staging c => c.before
  | placing _ => Channel.all

/-- The channels that have been put in place by then. -/
def placed : Halt → List Channel
  | making _ => []
  | staging _ => []
  | placing c => c.before

theorem earlier_of_before {c d : Channel} (h : d ∈ c.before) :
    (.making d ∈ earlier (.making c) ∧ .staging d ∈ earlier (.making c)) ∧
    (.making d ∈ earlier (.staging c) ∧ .staging d ∈ earlier (.staging c)) ∧
    .placing d ∈ earlier (.placing c) := by
  revert h
  cases c <;> cases d <;> decide

theorem making_earlier (c : Channel) : .making c ∈ earlier (.staging c) := by
  cases c <;> decide

/-- Nothing is put in place before all is staged. -/
theorem staged_earlier (c d : Channel) :
    .making d ∈ earlier (.placing c) ∧ .staging d ∈ earlier (.placing c) := by
  cases c <;> cases d <;> decide

end Halt

namespace Writer
variable {w : Writer} {test : String} {e : Entry} {files files' : FileTree} {c : Channel}
  {cs done : List Channel} {halt : Halt} {q : Path}

@[simp] theorem file_path : (w.file c test).path = w.place c (fileName test) := rfl

@[simp] theorem dropLast_place (w : Writer) (c : Channel) (name : String) :
    (w.place c name).dropLast = (w.folder c).path := List.dropLast_concat

theorem file_ne_temp (c d : Channel) : w.place c (fileName test) ≠ w.place d (tempName test) :=
  fun h => fileName_ne_tempName test test (place_inj.mp h).2

/-- Something stands in the way of a step: a file where a folder has to be, or a directory where a
file has to be. -/
def hinders (w : Writer) (test : String) (files : FileTree) : Halt → Bool
  | .making c => files.blocked (w.folder c).path
  | .staging c => files.isDirectory (w.place c (tempName test))
  | .placing c => files.isDirectory (w.place c (fileName test))

/-- The first step that something stands in the way of. -/
def halt? (w : Writer) (test : String) (files : FileTree) : Option Halt :=
  Halt.all.find? (w.hinders test files)

/-- How a write fails that stops at a step. -/
def failure (w : Writer) (test : String) : Halt → FileError
  | .making c => .createDirectory (w.folder c).shown
  | .staging c => .writeTemp (w.temp c test).shown
  | .placing c => .rename (w.temp c test).shown (w.file c test).shown

theorem hinders_congr (hread : ∀ d q, q <+: (w.folder d).path → files'.readFile q = files.readFile q)
    (hplace : ∀ d name, files'.isDirectory (w.place d name) = files.isDirectory (w.place d name))
    (halt : Halt) : w.hinders test files' halt = w.hinders test files halt := by
  cases halt with
  | making d => exact FileTree.blocked_congr (hread d)
  | staging d => exact hplace d _
  | placing d => exact hplace d _

/-- Some channels are staged. -/
structure Staged (w : Writer) (test : String) (e : Entry) (cs : List Channel)
    (before after : FileTree) : Prop where
  temp : ∀ c ∈ cs, after.readFile (w.place c (tempName test)) = some (w.body test e c)
  kept : ∀ q, (∀ c ∈ cs, q ≠ w.place c (tempName test)) → after.readFile q = before.readFile q
  directory : ∀ q, after.isDirectory q = true ↔
    (∃ c ∈ cs, q <+: (w.folder c).path) ∨ before.isDirectory q = true

namespace Staged

theorem refl (w : Writer) (test : String) (e : Entry) (files : FileTree) :
    Staged w test e [] files files where
  temp _ h := absurd h List.not_mem_nil
  kept _ _ := rfl
  directory _ := by simp

theorem hinders (h : Staged w test e cs files files') (halt : Halt) :
    w.hinders test files' halt = w.hinders test files halt := by
  refine hinders_congr (fun d q hq => h.kept q ?_) (fun d name => ?_) halt
  · rintro c _ rfl
    exact not_place_prefix hq
  · rw [Bool.eq_iff_iff, h.directory]
    exact or_iff_right (fun ⟨c, _, hprefix⟩ => not_place_prefix hprefix)

theorem cons {mid : FileTree} (hc : Staged w test e [c] files mid)
    (hcs : Staged w test e cs mid files') : Staged w test e (c :: cs) files files' := by
  constructor
  case temp =>
    intro d hd
    by_cases hmem : d ∈ cs
    · exact hcs.temp d hmem
    · have hdc : d = c := (List.mem_cons.mp hd).resolve_right hmem
      have hother : ∀ b ∈ cs, w.place d (tempName test) ≠ w.place b (tempName test) := by
        intro b hb heq
        exact hmem ((place_inj.mp heq).1 ▸ hb)
      rw [hcs.kept _ hother, hdc]
      exact hc.temp c List.mem_cons_self
  case kept =>
    intro q hq
    rw [hcs.kept q (fun d hd => hq d (List.mem_cons_of_mem c hd))]
    refine hc.kept q (fun d hd => ?_)
    rw [List.mem_singleton.mp hd]
    exact hq c List.mem_cons_self
  case directory =>
    intro q
    rw [hcs.directory, hc.directory]
    simp only [List.mem_cons, List.not_mem_nil, or_false, exists_eq_left, exists_eq_or_imp]
    exact or_left_comm.trans or_assoc.symm

end Staged

theorem made_of_fine (h : w.hinders test files (.making c) = false) :
    ∃ made, files.createDirectories (w.folder c).path = some made := by
  rw [← Option.ne_none_iff_exists', ne_eq, FileTree.createDirectories_eq_none, Bool.not_eq_true]
  exact h

/-- A channel is staged where nothing stands in the way. -/
theorem stage_fine (hmaking : w.hinders test files (.making c) = false)
    (hstaging : w.hinders test files (.staging c) = false) :
    ∃ files', w.stage test e c files = (.ok (), files') ∧ Staged w test e [c] files files' := by
  obtain ⟨made, hmade⟩ := made_of_fine hmaking
  have hdirectory := FileTree.isDirectory_createDirectories hmade
  have htemp : made.isDirectory (w.place c (tempName test)) = false := by
    rw [← Bool.not_eq_true, hdirectory, not_or]
    refine ⟨?_, Bool.not_eq_true _ ▸ hstaging⟩
    exact not_place_prefix
  have hfolder : made.isDirectory (w.folder c).path = true :=
    (hdirectory _).mpr (.inl (List.prefix_refl _))
  obtain ⟨filled, hfilled⟩ : ∃ filled,
      made.writeFile (w.place c (tempName test)) (w.body test e c) = some filled := by
    rw [← Option.ne_none_iff_exists', ne_eq, FileTree.writeFile_eq_none, dropLast_place, htemp,
      hfolder]
    simp
  refine ⟨filled, ?_, ?_⟩
  · simp only [stage, hmade, temp_path, hfilled]
  · constructor
    case temp =>
      intro d hd
      rw [List.mem_singleton.mp hd, FileTree.readFile_writeFile hfilled, if_pos rfl]
    case kept =>
      intro q hq
      rw [FileTree.readFile_writeFile hfilled, if_neg (hq c List.mem_cons_self),
        FileTree.readFile_createDirectories hmade]
    case directory =>
      intro q
      rw [FileTree.isDirectory_writeFile hfilled, hdirectory]
      simp

/-- A channel that cannot be staged leaves the files as they are. -/
theorem stage_stop (h : w.hinders test files halt = true)
    (hat : halt = .making c ∨ halt = .staging c ∧ w.hinders test files (.making c) = false) :
    ∃ files', w.stage test e c files = (.error (w.failure test halt), files') ∧
      ∀ q, files'.readFile q = files.readFile q := by
  rcases hat with rfl | ⟨rfl, hmaking⟩
  · have hblocked := FileTree.createDirectories_eq_none.mpr h
    refine ⟨files, ?_, fun _ => rfl⟩
    simp only [stage, hblocked, failure]
  · obtain ⟨made, hmade⟩ := made_of_fine hmaking
    have htemp : made.writeFile (w.place c (tempName test)) (w.body test e c) = none :=
      FileTree.writeFile_eq_none.mpr
        (.inl ((FileTree.isDirectory_createDirectories hmade _).mpr (.inr h)))
    refine ⟨made, ?_, FileTree.readFile_createDirectories hmade⟩
    simp only [stage, hmade, temp_path, htemp, failure]

/-- Where nothing stands in the way of some channels they are all staged. -/
theorem stageAll_fine (staged : List Channel) (hfree : ∀ c ∈ cs,
      w.hinders test files (.making c) = false ∧ w.hinders test files (.staging c) = false) :
    ∃ files', w.stageAll test e staged cs files = (.ok (), files') ∧
      Staged w test e cs files files' := by
  induction cs generalizing staged files with
  | nil => exact ⟨files, rfl, .refl w test e files⟩
  | cons c cs ih =>
    obtain ⟨hmaking, hstaging⟩ := hfree c List.mem_cons_self
    obtain ⟨mid, hstage, hc⟩ := stage_fine (e := e) hmaking hstaging
    -- A channel that is staged stands in the way of no other.
    have hrest : ∀ d ∈ cs,
        w.hinders test mid (.making d) = false ∧ w.hinders test mid (.staging d) = false := by
      intro d hd
      rw [hc.hinders, hc.hinders]
      exact hfree d (List.mem_cons_of_mem c hd)
    obtain ⟨last, hall, hcs⟩ := ih (staged ++ [c]) hrest
    refine ⟨last, ?_, hc.cons hcs⟩
    simp only [stageAll, hstage, hall]

theorem stageAll_append {staged : List Channel} {mid : FileTree}
    (h : w.stageAll test e staged done files = (.ok (), mid)) :
    w.stageAll test e staged (done ++ cs) files = w.stageAll test e (staged ++ done) cs mid := by
  induction done generalizing staged files with
  | nil =>
    cases h
    rw [List.nil_append, List.append_nil]
  | cons c done ih =>
    rw [stageAll] at h
    rw [List.cons_append, stageAll]
    split at h
    · cases h
    · rename_i next hstage
      simp only [ih h, List.append_assoc, List.singleton_append]

/-- Nothing that was staged is left after a discard, and all else stays. -/
theorem readFile_discard (w : Writer) (test : String) (cs : List Channel) (files : FileTree)
    (q : Path) : (w.discard test cs files).readFile q =
      if ∃ c ∈ cs, q = w.place c (tempName test) then none else files.readFile q := by
  induction cs generalizing files with
  | nil => simp [discard]
  | cons c cs ih =>
    have hstep : ((files.removeFile (w.place c (tempName test))).getD files).readFile q =
        if q = w.place c (tempName test) then none else files.readFile q := by
      cases hremove : files.removeFile (w.place c (tempName test)) with
      | some left => exact FileTree.readFile_removeFile hremove q
      | none =>
        rw [Option.getD_none]
        split
        · rename_i hq
          rw [hq]
          exact FileTree.removeFile_eq_none.mp hremove
        · rfl
    have hrest := ih ((files.removeFile (w.place c (tempName test))).getD files)
    rw [hstep] at hrest
    refine hrest.trans ?_
    simp only [List.mem_cons, exists_eq_or_imp]
    split <;> split <;> simp_all

/-- When a channel cannot be staged those before it are discarded. -/
theorem stageAll_stop (rest : List Channel) (hfree : ∀ d ∈ done,
      w.hinders test files (.making d) = false ∧ w.hinders test files (.staging d) = false)
    (h : w.hinders test files halt = true)
    (hat : halt = .making c ∨ halt = .staging c ∧ w.hinders test files (.making c) = false) :
    ∃ files', w.stageAll test e [] (done ++ c :: rest) files =
        (.error (w.failure test halt), files') ∧
      ∀ q, files'.readFile q =
        if ∃ d ∈ done, q = w.place d (tempName test) then none else files.readFile q := by
  obtain ⟨mid, hall, hstaged⟩ := stageAll_fine (e := e) [] hfree
  rw [← hstaged.hinders] at h
  rw [← hstaged.hinders] at hat
  obtain ⟨last, hstop, hlast⟩ := stage_stop (e := e) h hat
  refine ⟨w.discard test done last, ?_, fun q => ?_⟩
  · rw [stageAll_append hall, List.nil_append]
    simp only [stageAll, hstop]
  · rw [readFile_discard, hlast]
    split
    · rfl
    · rename_i hq
      exact hstaged.kept q (fun d hd heq => hq ⟨d, hd, heq⟩)

/-- Some channels that were staged have been put in place. -/
structure Placed (w : Writer) (test : String) (e : Entry) (cs : List Channel)
    (before after : FileTree) : Prop where
  file : ∀ c ∈ cs, after.readFile (w.place c (fileName test)) = some (w.body test e c)
  temp : ∀ c ∈ cs, after.readFile (w.place c (tempName test)) = none
  kept : ∀ q, (∀ c ∈ cs, q ≠ w.place c (fileName test) ∧ q ≠ w.place c (tempName test)) →
    after.readFile q = before.readFile q
  directory : ∀ q, after.isDirectory q = before.isDirectory q

/-- A channel is staged and its folder is there. -/
def Ready (w : Writer) (test : String) (e : Entry) (files : FileTree) (c : Channel) : Prop :=
  files.readFile (w.place c (tempName test)) = some (w.body test e c) ∧
    files.isDirectory (w.folder c).path = true

theorem Staged.ready (h : Staged w test e cs files files') (hc : c ∈ cs) :
    w.Ready test e files' c :=
  ⟨h.temp c hc, (h.directory _).mpr (.inl ⟨c, hc, List.prefix_refl _⟩)⟩

/-- A channel that is staged can be put in place unless a directory is there. -/
theorem renameFile_ready (h : w.Ready test e files c) :
    files.renameFile (w.place c (tempName test)) (w.place c (fileName test)) = none ↔
      w.hinders test files (.placing c) = true := by
  rw [FileTree.renameFile_eq_none h.1, dropLast_place, h.2]
  simp [hinders]

theorem placed_of_rename (h : w.Ready test e files c)
    (hrename : files.renameFile (w.place c (tempName test)) (w.place c (fileName test)) =
      some files') : Placed w test e [c] files files' := by
  have hview := FileTree.readFile_renameFile h.1 hrename
  constructor
  case file =>
    intro d hd
    rw [List.mem_singleton.mp hd, hview, if_pos rfl]
  case temp =>
    intro d hd
    rw [List.mem_singleton.mp hd, hview, if_neg (file_ne_temp c c).symm, if_pos rfl]
  case kept =>
    intro q hq
    obtain ⟨hfile, htemp⟩ := hq c List.mem_cons_self
    rw [hview, if_neg hfile, if_neg htemp]
  case directory => exact FileTree.isDirectory_renameFile hrename

namespace Placed

/-- A channel stays staged while others are put in place. -/
theorem ready (h : Placed w test e cs files files') (hc : c ∉ cs) (hready : w.Ready test e files c) :
    w.Ready test e files' c := by
  refine ⟨?_, h.directory _ ▸ hready.2⟩
  rw [h.kept _ (fun d hd => ⟨(file_ne_temp d c).symm, fun heq => ?_⟩)]
  · exact hready.1
  · exact hc ((place_inj.mp heq).1 ▸ hd)

theorem cons {mid : FileTree} (hc : Placed w test e [c] files mid)
    (hcs : Placed w test e cs mid files') (hnew : c ∉ cs) :
    Placed w test e (c :: cs) files files' := by
  have hother : ∀ name, ∀ d ∈ cs,
      w.place c name ≠ w.place d (fileName test) ∧ w.place c name ≠ w.place d (tempName test) := by
    intro name d hd
    exact ⟨fun heq => hnew ((place_inj.mp heq).1 ▸ hd), fun heq => hnew ((place_inj.mp heq).1 ▸ hd)⟩
  constructor
  case file =>
    intro d hd
    rcases List.mem_cons.mp hd with rfl | hd
    · rw [hcs.kept _ (hother _)]
      exact hc.file d List.mem_cons_self
    · exact hcs.file d hd
  case temp =>
    intro d hd
    rcases List.mem_cons.mp hd with rfl | hd
    · rw [hcs.kept _ (hother _)]
      exact hc.temp d List.mem_cons_self
    · exact hcs.temp d hd
  case kept =>
    intro q hq
    rw [hcs.kept q (fun d hd => hq d (List.mem_cons_of_mem c hd))]
    refine hc.kept q (fun d hd => ?_)
    rw [List.mem_singleton.mp hd]
    exact hq c List.mem_cons_self
  case directory => exact fun q => (hcs.directory q).trans (hc.directory q)

end Placed

/-- Where nothing stands in the way all channels that are staged are put in place. -/
theorem commitAll_fine (hnodup : cs.Nodup) (hready : ∀ c ∈ cs, w.Ready test e files c)
    (hfree : ∀ c ∈ cs, w.hinders test files (.placing c) = false) :
    ∃ files', w.commitAll test cs files = (.ok (), files') ∧ Placed w test e cs files files' := by
  induction cs generalizing files with
  | nil => exact ⟨files, rfl, by simp, by simp, fun _ _ => rfl, fun _ => rfl⟩
  | cons c cs ih =>
    obtain ⟨hnew, hnodup⟩ := List.nodup_cons.mp hnodup
    have hc := hready c List.mem_cons_self
    obtain ⟨mid, hrename⟩ : ∃ mid, files.renameFile (w.place c (tempName test))
        (w.place c (fileName test)) = some mid := by
      rw [← Option.ne_none_iff_exists', ne_eq, renameFile_ready hc, Bool.not_eq_true]
      exact hfree c List.mem_cons_self
    have hplaced := placed_of_rename hc hrename
    -- The channels after it are still staged, and what was in their way is as it was.
    have hrest : ∀ d ∈ cs, w.Ready test e mid d := by
      intro d hd
      refine hplaced.ready ?_ (hready d (List.mem_cons_of_mem c hd))
      intro hdc
      exact hnew (List.mem_singleton.mp hdc ▸ hd)
    have hclear : ∀ d ∈ cs, w.hinders test mid (.placing d) = false := by
      intro d hd
      exact (hplaced.directory _).trans (hfree d (List.mem_cons_of_mem c hd))
    obtain ⟨last, hall, hcs⟩ := ih hnodup hrest hclear
    refine ⟨last, ?_, hplaced.cons hcs hnew⟩
    simp only [commitAll, temp_path, file_path, hrename, hall]

theorem commitAll_append {mid : FileTree} (h : w.commitAll test done files = (.ok (), mid)) :
    w.commitAll test (done ++ cs) files = w.commitAll test cs mid := by
  induction done generalizing files with
  | nil =>
    cases h
    rfl
  | cons c done ih =>
    rw [commitAll] at h
    rw [List.cons_append, commitAll]
    split at h
    · cases h
    · exact ih h

/-- When a channel cannot be put in place it is discarded with those after it. -/
theorem commitAll_stop {rest : List Channel} (hnodup : (done ++ c :: rest).Nodup)
    (hready : ∀ d ∈ done ++ c :: rest, w.Ready test e files d)
    (hfree : ∀ d ∈ done, w.hinders test files (.placing d) = false)
    (h : w.hinders test files (.placing c) = true) :
    ∃ mid, Placed w test e done files mid ∧
      w.commitAll test (done ++ c :: rest) files =
        (.error (w.failure test (.placing c)), w.discard test (c :: rest) mid) := by
  obtain ⟨hdone, _, hdisjoint⟩ := List.nodup_append.mp hnodup
  obtain ⟨mid, hall, hplaced⟩ := commitAll_fine hdone
    (fun d hd => hready d (List.mem_append_left _ hd)) hfree
  have hnew : c ∉ done := fun hc => hdisjoint c hc c List.mem_cons_self rfl
  have hc := hplaced.ready hnew (hready c (List.mem_append_right _ List.mem_cons_self))
  have hrename := (renameFile_ready hc).mpr ((hplaced.directory _).trans h)
  refine ⟨mid, hplaced, ?_⟩
  rw [commitAll_append hall]
  simp only [commitAll, temp_path, file_path, hrename, failure]

/-- What is left of the files when a write stops at a step. -/
structure Left (w : Writer) (test : String) (e : Entry) (halt : Halt) (before after : FileTree) :
    Prop where
  placed : ∀ c ∈ halt.placed, after.readFile (w.place c (fileName test)) = some (w.body test e c)
  removed : ∀ c ∈ halt.staged, after.readFile (w.place c (tempName test)) = none
  kept : ∀ q, (∀ c ∈ halt.placed, q ≠ w.place c (fileName test)) →
    (∀ c ∈ halt.staged, q ≠ w.place c (tempName test)) → after.readFile q = before.readFile q

/-- Nothing is changed if what is in place was there already, and nothing lay where it was
staged. -/
theorem Left.unchanged_iff (h : Left w test e halt files files') :
    (∀ q, files'.readFile q = files.readFile q) ↔
      (∀ c ∈ halt.placed, files.readFile (w.place c (fileName test)) = some (w.body test e c)) ∧
      ∀ c ∈ halt.staged, files.readFile (w.place c (tempName test)) = none := by
  constructor
  · intro hsame
    exact ⟨fun c hc => (hsame _).symm.trans (h.placed c hc),
      fun c hc => (hsame _).symm.trans (h.removed c hc)⟩
  · rintro ⟨hplaced, hremoved⟩ q
    by_cases hfile : ∃ c ∈ halt.placed, q = w.place c (fileName test)
    · obtain ⟨c, hc, rfl⟩ := hfile
      rw [h.placed c hc, hplaced c hc]
    by_cases htemp : ∃ c ∈ halt.staged, q = w.place c (tempName test)
    · obtain ⟨c, hc, rfl⟩ := htemp
      rw [h.removed c hc, hremoved c hc]
    exact h.kept q (fun c hc heq => hfile ⟨c, hc, heq⟩) (fun c hc heq => htemp ⟨c, hc, heq⟩)

/-- What is left by a write that stops before all is staged. -/
theorem left_of_stage (hstaged : halt.staged = c.before) (hplaced : halt.placed = [])
    (h : ∀ q, files'.readFile q =
      if ∃ d ∈ c.before, q = w.place d (tempName test) then none else files.readFile q) :
    Left w test e halt files files' := by
  constructor
  case placed => simp [hplaced]
  case removed =>
    intro d hd
    rw [h, if_pos ⟨d, hstaged ▸ hd, rfl⟩]
  case kept =>
    intro q _ htemp
    rw [h, if_neg]
    rintro ⟨d, hd, heq⟩
    exact htemp d (hstaged ▸ hd) heq

/-- What is left by a write that stops after some files are put in place. -/
theorem left_of_commit {mid last : FileTree} {rest : List Channel}
    (hall : Channel.all = c.before ++ c :: rest) (hstaged : Staged w test e Channel.all files mid)
    (hplaced : Placed w test e c.before mid last) :
    Left w test e (.placing c) files (w.discard test (c :: rest) last) := by
  have hview := readFile_discard w test (c :: rest) last
  constructor
  case placed =>
    intro d hd
    rw [hview, if_neg]
    · exact hplaced.file d hd
    · rintro ⟨b, _, heq⟩
      exact file_ne_temp d b heq
  case removed =>
    intro d hd
    change d ∈ Channel.all at hd
    rw [hview]
    split
    · rfl
    · rename_i hnot
      rw [hall] at hd
      rcases List.mem_append.mp hd with hd | hd
      · exact hplaced.temp d hd
      · exact absurd ⟨d, hd, rfl⟩ hnot
  case kept =>
    intro q hfile htemp
    have hrest : ¬ ∃ d ∈ c :: rest, q = w.place d (tempName test) := by
      rintro ⟨d, _, heq⟩
      exact htemp d d.mem_all heq
    rw [hview, if_neg hrest, hplaced.kept q (fun d hd => ⟨hfile d hd, htemp d d.mem_all⟩)]
    exact hstaged.kept q htemp

/-- Nothing stands in the way of the steps before the first that it does. -/
theorem fine_of_earlier {step : Halt} (h : w.halt? test files = some halt)
    (hmem : step ∈ halt.earlier) : w.hinders test files step = false := by
  obtain ⟨hstop, steps, rest, hall, hfine⟩ := List.find?_eq_some_iff_append.mp h
  have hfree : ∀ b ∈ steps, w.hinders test files b = false := by
    intro b hb
    simpa using hfine b hb
  have hne : ∀ b ∈ steps, decide (b ≠ halt) = true := by
    intro b hb
    rw [decide_eq_true_eq]
    rintro rfl
    rw [hfree b hb] at hstop
    cases hstop
  rw [Halt.earlier, hall, List.takeWhile_append_of_pos hne] at hmem
  exact hfree step (by simpa using hmem)

theorem write_stop_staging (e : Entry) (h : w.halt? test files = some halt)
    (hc : halt = .making c ∨ halt = .staging c) :
    ∃ files', w.write test e files = (.error (w.failure test halt), files') ∧
      Left w test e halt files files' := by
  have hfree : ∀ d ∈ c.before,
      w.hinders test files (.making d) = false ∧ w.hinders test files (.staging d) = false := by
    intro d hd
    obtain ⟨⟨hmaking, hstaging⟩, ⟨hmaking', hstaging'⟩, _⟩ := Halt.earlier_of_before hd
    rcases hc with rfl | rfl
    · exact ⟨fine_of_earlier h hmaking, fine_of_earlier h hstaging⟩
    · exact ⟨fine_of_earlier h hmaking', fine_of_earlier h hstaging'⟩
  have hat : halt = .making c ∨ halt = .staging c ∧ w.hinders test files (.making c) = false := by
    rcases hc with rfl | rfl
    · exact .inl rfl
    · exact .inr ⟨rfl, fine_of_earlier h (Halt.making_earlier c)⟩
  obtain ⟨rest, hall⟩ := c.all_eq
  obtain ⟨files', hfails, hview⟩ :=
    stageAll_stop (e := e) rest hfree (List.find?_some h) hat
  refine ⟨files', ?_, left_of_stage (c := c) ?_ ?_ hview⟩
  · simp only [write, hall, hfails]
  · rcases hc with rfl | rfl <;> rfl
  · rcases hc with rfl | rfl <;> rfl

theorem write_stop_placing (e : Entry) (h : w.halt? test files = some (.placing c)) :
    ∃ files', w.write test e files = (.error (w.failure test (.placing c)), files') ∧
      Left w test e (.placing c) files files' := by
  have hfree : ∀ d ∈ Channel.all,
      w.hinders test files (.making d) = false ∧ w.hinders test files (.staging d) = false := by
    intro d _
    obtain ⟨hmaking, hstaging⟩ := Halt.staged_earlier c d
    exact ⟨fine_of_earlier h hmaking, fine_of_earlier h hstaging⟩
  obtain ⟨mid, hstageAll, hstaged⟩ := stageAll_fine (e := e) [] hfree
  have hready : ∀ d ∈ Channel.all, w.Ready test e mid d := fun d hd => hstaged.ready hd
  have hclear : ∀ d ∈ c.before, w.hinders test mid (.placing d) = false := by
    intro d hd
    rw [hstaged.hinders]
    exact fine_of_earlier h (Halt.earlier_of_before hd).2.2
  have hstop : w.hinders test mid (.placing c) = true := by
    rw [hstaged.hinders]
    exact List.find?_some h
  have hnodup := Channel.nodup_all
  obtain ⟨rest, hall⟩ := c.all_eq
  rw [hall] at hready hnodup
  obtain ⟨last, hplaced, hfails⟩ := commitAll_stop hnodup hready hclear hstop
  refine ⟨_, ?_, left_of_commit hall hstaged hplaced⟩
  rw [← hall] at hfails
  simp only [write, hstageAll, hfails]

/-- A write stops at the first step that something stands in the way of. -/
theorem write_stop (e : Entry) (h : w.halt? test files = some halt) :
    ∃ files', w.write test e files = (.error (w.failure test halt), files') ∧
      Left w test e halt files files' := by
  cases halt with
  | making c => exact write_stop_staging e h (.inl rfl)
  | staging c => exact write_stop_staging e h (.inr rfl)
  | placing c => exact write_stop_placing e h

/-- A write succeeds where nothing stands in the way. -/
theorem write_fine (e : Entry) (h : w.halt? test files = none) :
    ∃ files', w.write test e files = (.ok (), files') := by
  have hfree : ∀ b ∈ Halt.all, w.hinders test files b = false :=
    fun b hb => Bool.not_eq_true _ ▸ List.find?_eq_none.mp h b hb
  have hstage : ∀ c ∈ Channel.all,
      w.hinders test files (.making c) = false ∧ w.hinders test files (.staging c) = false := by
    intro c _
    obtain ⟨hmaking, hstaging⟩ := Halt.staged_earlier c c
    exact ⟨hfree _ (List.takeWhile_subset _ hmaking), hfree _ (List.takeWhile_subset _ hstaging)⟩
  obtain ⟨mid, hstageAll, hstaged⟩ := stageAll_fine (e := e) [] hstage
  have hplace : ∀ c ∈ Channel.all, w.hinders test mid (.placing c) = false := by
    intro c hc
    rw [hstaged.hinders]
    exact hfree _ (List.mem_append_right _ (List.mem_map.mpr ⟨c, hc, rfl⟩))
  obtain ⟨files', hcommit, _⟩ :=
    commitAll_fine Channel.nodup_all (fun c hc => hstaged.ready hc) hplace
  refine ⟨files', ?_⟩
  simp only [write, hstageAll, hcommit]

/-- A write fails just if something stands in the way of one of its steps. Then all files are as
they were, except that the content of the channels before the one that could not be put in place
has been put in place already, and that nothing lies any more where files were staged. -/
theorem left_of_write (w : Writer) (test : String) (e : Entry) (files : FileTree) :
    ((∃ err files', w.write test e files = (.error err, files')) ↔
      ∃ halt, w.halt? test files = some halt) ∧
    ∀ err files', w.write test e files = (.error err, files') →
      ∃ halt, w.halt? test files = some halt ∧ err = w.failure test halt ∧
        Left w test e halt files files' ∧
        ((∀ q, files'.readFile q = files.readFile q) ↔
          (∀ c ∈ halt.placed,
            files.readFile (w.place c (fileName test)) = some (w.body test e c)) ∧
          ∀ c ∈ halt.staged, files.readFile (w.place c (tempName test)) = none) := by
  cases hhalt : w.halt? test files with
  | none =>
    obtain ⟨t, hdone⟩ := write_fine e hhalt
    have hnot : ∀ err files', w.write test e files ≠ (.error err, files') := by
      intro err files' h
      cases hdone.symm.trans h
    refine ⟨iff_of_false ?_ ?_, fun err files' h => absurd h (hnot err files')⟩
    · rintro ⟨err, files', h⟩
      exact hnot err files' h
    · rintro ⟨halt, h⟩
      cases h
  | some halt =>
    obtain ⟨t, hfails, hleft⟩ := write_stop e hhalt
    refine ⟨iff_of_true ⟨_, t, hfails⟩ ⟨halt, rfl⟩, fun err files' h => ?_⟩
    cases hfails.symm.trans h
    exact ⟨halt, rfl, rfl, hleft, hleft.unchanged_iff⟩

/-- A directory has the name of a file in the second channel. -/
def occupied : FileTree :=
  ((FileTree.put {} ["gas"] .directory).put ["state_root"] .directory).put
    ["state_root", "T1.json"] .directory

/-- The first write of a test fails and leaves one of its two files. -/
theorem left_of_write_occupied : ∃ (w : Writer) (e : Entry) (files' : FileTree),
    w.write "T1" e occupied = (.error (w.failure "T1" (.placing .stateRoot)), files') ∧
    occupied.readFile (w.place .gas "T1.json") = none ∧
    files'.readFile (w.place .gas "T1.json") = some (w.body "T1" e .gas) := by
  let w : Writer := default
  let e : Entry := { gas := [5] }
  have hhalt : w.halt? "T1" occupied = some (.placing .stateRoot) := by decide +kernel
  obtain ⟨hfails, hleft⟩ := left_of_write w "T1" e occupied
  obtain ⟨err, files', h⟩ := hfails.mpr ⟨_, hhalt⟩
  obtain ⟨halt, hhalt', rfl, left, _⟩ := hleft err files' h
  obtain rfl := Option.some.inj (hhalt.symm.trans hhalt')
  have hname : fileName "T1" = "T1.json" := by decide +kernel
  have hfree : occupied.readFile (w.place .gas "T1.json") = none := by
    have hnone : (occupied.readFile (w.place .gas "T1.json")).isNone = true := by decide +kernel
    exact Option.isNone_iff_eq_none.mp hnone
  exact ⟨w, e, files', h, hfree, hname ▸ left.placed .gas List.mem_cons_self⟩

end Writer
end Conformance.Fixture

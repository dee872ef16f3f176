import Conformance.FileTree

namespace Conformance.FileTree

variable {t t' : FileTree} {p q : Path}

@[simp] theorem get?_nil (t : FileTree) : t.get? [] = some .directory := rfl

theorem get?_of_ne (t : FileTree) (h : p ≠ []) : t.get? p = t.entries.get? p := if_neg h

theorem isDirectory_iff : t.isDirectory p = true ↔ t.get? p = some .directory := by
  unfold isDirectory
  cases t.get? p with
  | none => simp
  | some e => cases e <;> simp

theorem readFile_eq_some {body : FileBody} :
    t.readFile p = some body ↔ t.get? p = some (.file body) := by
  unfold readFile
  split
  · rename_i b hfile
    rw [hfile, Option.some.injEq, Option.some.injEq, FileEntry.file.injEq]
  · rename_i hfile
    simp only [reduceCtorEq, false_iff]
    exact hfile body

theorem get?_put (t : FileTree) (e : FileEntry) (hp : p ≠ []) (q : Path) :
    (t.put p e).get? q = if q = p then some e else t.get? q := by
  by_cases hq : q = []
  · subst hq
    simp [hp.symm]
  · rw [get?_of_ne _ hq, get?_of_ne _ hq, put, SortedMap.get?_insert]
    simp only [eq_comm]

theorem mem_above : q ∈ above p ↔ q <+: p := by
  rw [List.prefix_iff_eq_take]
  simp only [above, List.mem_map, List.mem_range]
  constructor
  · rintro ⟨n, hn, rfl⟩
    rw [List.length_take, Nat.min_eq_left (by omega)]
  · intro h
    have hlength := congrArg List.length h
    rw [List.length_take] at hlength
    exact ⟨q.length, by omega, h.symm⟩

theorem createDirectories_ok (h : t.createDirectories p = some t') (q : Path) :
    t'.get? q = if q <+: p then some .directory else t.get? q := by
  simp only [← mem_above]
  unfold createDirectories at h
  generalize above p = rs at h ⊢
  induction rs generalizing t with
  | nil =>
    cases h
    simp
  | cons r rs ih =>
    rw [List.foldlM_cons] at h
    split at h
    · rename_i hdir
      rw [ih h]
      by_cases hq : q = r
      · subst hq
        simp [hdir]
      · simp [hq]
    · cases h
    · rename_i hnone
      have hr : r ≠ [] := by
        rintro rfl
        cases hnone
      rw [ih h, get?_put t _ hr]
      by_cases hq : q = r <;> simp [hq]

theorem writeFile_ok {body : FileBody} (h : t.writeFile p body = some t') (q : Path) :
    t'.get? q = if q = p then some (.file body) else t.get? q := by
  unfold writeFile at h
  split at h
  · cases h
  · rename_i hdir
    have hp : p ≠ [] := by
      rintro rfl
      exact hdir rfl
    split at h
    · cases h
      exact get?_put t _ hp q
    · cases h

theorem removeFile_ok (h : t.removeFile p = some t') (q : Path) :
    t'.get? q = if q = p then none else t.get? q := by
  unfold removeFile at h
  split at h
  · rename_i body hfile
    cases h
    have hp : p ≠ [] := by
      rintro rfl
      cases hfile
    by_cases hq : q = []
    · subst hq
      simp [hp.symm]
    · rw [get?_of_ne _ hq, get?_of_ne _ hq, SortedMap.get?_erase]
      simp only [eq_comm]
  · cases h

/-- A file that was moved lies at its target, whatever lay there, and no longer at its source. -/
theorem renameFile_ok {source target : Path} (h : t.renameFile source target = some t') :
    ∃ body, t.get? source = some (.file body) ∧ ∀ q, t'.get? q =
      if q = target then some (.file body) else if q = source then none else t.get? q := by
  obtain ⟨body, hread, h⟩ := Option.bind_eq_some_iff.mp h
  obtain ⟨u, hremove, h⟩ := Option.bind_eq_some_iff.mp h
  refine ⟨body, readFile_eq_some.mp hread, fun q => ?_⟩
  rw [writeFile_ok h, removeFile_ok hremove]

section Contents
variable {body : FileBody}

theorem readFile_congr (h : t'.get? q = t.get? q) : t'.readFile q = t.readFile q := by
  rw [readFile, readFile, h]

theorem isDirectory_congr (h : t'.get? q = t.get? q) : t'.isDirectory q = t.isDirectory q := by
  rw [isDirectory, isDirectory, h]

theorem readFile_of_directory (h : t.get? p = some .directory) : t.readFile p = none := by
  rw [readFile, h]

/-- A file lies at a path, or on the way to it. -/
def blocked (t : FileTree) (p : Path) : Bool := (above p).any (fun q => (t.readFile q).isSome)

theorem blocked_iff : t.blocked p = true ↔ ∃ q, q <+: p ∧ (t.readFile q).isSome = true := by
  simp only [blocked, List.any_eq_true, mem_above]

theorem blocked_congr (h : ∀ q, q <+: p → t'.readFile q = t.readFile q) :
    t'.blocked p = t.blocked p := by
  rw [Bool.eq_iff_iff, blocked_iff, blocked_iff]
  exact exists_congr (fun q => and_congr_right (fun hq => by rw [h q hq]))

/-- Only a file stands in the way of a directory. -/
theorem createDirectories_eq_none : t.createDirectories p = none ↔ t.blocked p = true := by
  unfold createDirectories blocked
  generalize above p = rs
  induction rs generalizing t with
  | nil => simp
  | cons r rs ih =>
    rw [List.foldlM_cons, List.any_cons]
    split
    · rename_i hdir
      rw [readFile_of_directory hdir]
      exact ih
    · rename_i body hfile
      rw [readFile_eq_some.mpr hfile]
      exact iff_of_true rfl rfl
    · rename_i hnone
      have hr : r ≠ [] := by
        rintro rfl
        cases hnone
      have hread : ∀ q, (t.put r .directory).readFile q = t.readFile q := by
        intro q
        by_cases hq : q = r
        · rw [hq, readFile_of_directory (by rw [get?_put t _ hr, if_pos rfl]), readFile, hnone]
        · exact readFile_congr (by rw [get?_put t _ hr, if_neg hq])
      have hfree : t.readFile r = none := by rw [readFile, hnone]
      rw [hfree]
      exact ih.trans (by simp only [hread, Option.isSome_none, Bool.false_or])

theorem readFile_createDirectories (h : t.createDirectories p = some t') (q : Path) :
    t'.readFile q = t.readFile q := by
  have hview := createDirectories_ok h q
  by_cases hq : q <+: p
  · have hfree : ¬ t.blocked p = true := by
      rw [← createDirectories_eq_none, h]
      exact Option.some_ne_none t'
    rw [if_pos hq] at hview
    rw [readFile_of_directory hview]
    cases hread : t.readFile q with
    | none => rfl
    | some body => exact absurd (blocked_iff.mpr ⟨q, hq, by rw [hread]; rfl⟩) hfree
  · rw [if_neg hq] at hview
    exact readFile_congr hview

theorem isDirectory_createDirectories (h : t.createDirectories p = some t') (q : Path) :
    t'.isDirectory q = true ↔ q <+: p ∨ t.isDirectory q = true := by
  rw [isDirectory_iff, isDirectory_iff, createDirectories_ok h]
  split <;> simp [*]

theorem writeFile_eq_none :
    t.writeFile p body = none ↔ t.isDirectory p = true ∨ t.isDirectory p.dropLast = false := by
  unfold writeFile
  split
  · simp [*]
  · split <;> simp [*]

theorem readFile_writeFile (h : t.writeFile p body = some t') (q : Path) :
    t'.readFile q = if q = p then some body else t.readFile q := by
  have hview := writeFile_ok h q
  split
  · rename_i hq
    rw [if_pos hq] at hview
    exact readFile_eq_some.mpr hview
  · rename_i hq
    rw [if_neg hq] at hview
    exact readFile_congr hview

/-- A file never takes the place of a directory. -/
theorem isDirectory_writeFile (h : t.writeFile p body = some t') (q : Path) :
    t'.isDirectory q = t.isDirectory q := by
  have hview := writeFile_ok h q
  by_cases hq : q = p
  · have hfree : t.isDirectory p = false := by
      rw [← Bool.not_eq_true]
      intro hdir
      cases (writeFile_eq_none.mpr (.inl hdir)).symm.trans h
    rw [if_pos hq] at hview
    rw [isDirectory, hview, hq, hfree]
  · rw [if_neg hq] at hview
    exact isDirectory_congr hview

theorem removeFile_eq_none : t.removeFile p = none ↔ t.readFile p = none := by
  unfold removeFile readFile
  split <;> simp

theorem readFile_removeFile (h : t.removeFile p = some t') (q : Path) :
    t'.readFile q = if q = p then none else t.readFile q := by
  have hview := removeFile_ok h q
  split
  · rename_i hq
    rw [if_pos hq] at hview
    rw [readFile, hview]
  · rename_i hq
    rw [if_neg hq] at hview
    exact readFile_congr hview

theorem isDirectory_removeFile (h : t.removeFile p = some t') (q : Path) :
    t'.isDirectory q = t.isDirectory q := by
  have hview := removeFile_ok h q
  by_cases hq : q = p
  · obtain ⟨body, hbody⟩ : ∃ body, t.readFile p = some body := by
      rw [← Option.ne_none_iff_exists', ne_eq, ← removeFile_eq_none, h]
      exact Option.some_ne_none t'
    rw [if_pos hq] at hview
    rw [isDirectory, isDirectory, hview, hq, readFile_eq_some.mp hbody]
  · rw [if_neg hq] at hview
    exact isDirectory_congr hview

/-- A file that is there can be moved unless a directory has its target's name, or none is there for
it. -/
theorem renameFile_eq_none {source target : Path} (hfile : t.readFile source = some body) :
    t.renameFile source target = none ↔
      t.isDirectory target = true ∨ t.isDirectory target.dropLast = false := by
  obtain ⟨u, hu⟩ : ∃ u, t.removeFile source = some u := by
    rw [← Option.ne_none_iff_exists', ne_eq, removeFile_eq_none, hfile]
    exact Option.some_ne_none body
  have hrename : t.renameFile source target = u.writeFile target body := by
    simp only [renameFile, hfile, hu, bind, Option.bind]
  rw [hrename, writeFile_eq_none, isDirectory_removeFile hu, isDirectory_removeFile hu]

theorem readFile_renameFile {source target : Path} (hfile : t.readFile source = some body)
    (h : t.renameFile source target = some t') (q : Path) :
    t'.readFile q =
      if q = target then some body else if q = source then none else t.readFile q := by
  obtain ⟨body', hread, h⟩ := Option.bind_eq_some_iff.mp h
  obtain ⟨u, hremove, h⟩ := Option.bind_eq_some_iff.mp h
  obtain rfl := Option.some.inj (hfile.symm.trans hread)
  rw [readFile_writeFile h, readFile_removeFile hremove]

theorem isDirectory_renameFile {source target : Path} (h : t.renameFile source target = some t')
    (q : Path) : t'.isDirectory q = t.isDirectory q := by
  obtain ⟨body, _, h⟩ := Option.bind_eq_some_iff.mp h
  obtain ⟨u, hremove, h⟩ := Option.bind_eq_some_iff.mp h
  rw [isDirectory_writeFile h, isDirectory_removeFile hremove]

end Contents

theorem eq_concat {dir : Path} {name : String} (hdir : p.dropLast = dir)
    (hname : p.getLast? = some name) : p = dir ++ [name] := by
  obtain ⟨ys, rfl⟩ := List.getLast?_eq_some_iff.mp hname
  rw [← hdir, List.dropLast_concat]

theorem mem_children {dir : Path} {name : String} :
    name ∈ t.children dir ↔ (t.get? (dir ++ [name])).isSome = true := by
  rw [get?_of_ne _ (by simp), ← SortedMap.mem_keys, children, List.mem_filterMap]
  constructor
  · rintro ⟨p, hp, h⟩
    split at h
    · rename_i hdir
      rwa [← eq_concat hdir.2 h]
    · cases h
  · intro h
    exact ⟨_, h, by simp⟩

theorem nodup_children (t : FileTree) (dir : Path) : (t.children dir).Nodup := by
  refine List.Pairwise.filterMap _ ?_ t.entries.nodup_keys
  intro p q hne name hname other hother heq
  subst heq
  split at hname
  · rename_i hp
    split at hother
    · rename_i hq
      exact hne ((eq_concat hp.2 hname).trans (eq_concat hq.2 hother).symm)
    · cases hother
  · cases hname

/-- Where one name alone has something under it, it is the only one listed. -/
theorem children_eq_singleton {dir : Path} {name : String}
    (h : ∀ n, (t.get? (dir ++ [n])).isSome = true ↔ n = name) : t.children dir = [name] := by
  have hmem : ∀ n, n ∈ t.children dir ↔ n = name := fun n => mem_children.trans (h n)
  have hnodup := t.nodup_children dir
  cases hnames : t.children dir with
  | nil =>
    rw [hnames] at hmem
    exact absurd ((hmem name).mpr rfl) (List.not_mem_nil)
  | cons n ns =>
    rw [hnames] at hmem hnodup
    obtain rfl := (hmem n).mp (by simp)
    cases ns with
    | nil => rfl
    | cons m ms =>
      obtain rfl := (hmem m).mp (by simp)
      simp at hnodup

/-- Nothing lies below a path. -/
def EmptyBelow (t : FileTree) (p : Path) : Prop := ∀ q, p <+: q → q ≠ p → t.get? q = none

end Conformance.FileTree

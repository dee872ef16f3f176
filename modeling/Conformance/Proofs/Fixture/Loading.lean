import Conformance.Proofs.Fixture.Writing
import Conformance.Proofs.Instant.Reading

namespace Conformance

theorem sanitize_eq_empty {test : String} :
    sanitize test = "" ↔ test.toList.any isPlain = false := by
  rw [sanitize, ← String.toList_eq_nil_iff, String.toList_ofList, List.filter_eq_nil_iff,
    List.any_eq_false]

namespace Fixture

/-- Without a stem a name has no extension. -/
theorem stem?_json (stem : String) :
    stem? (stem ++ ".json") = if stem = "" then none else some stem := by
  have hsuffix : (".json".toList).isSuffixOf (stem ++ ".json").toList = true := by
    rw [List.isSuffixOf_iff_suffix, String.toList_append]
    exact List.suffix_append _ _
  have hlength : (stem ++ ".json").toList.length = stem.toList.length + ".json".toList.length := by
    simp
  unfold stem?
  simp only [hsuffix, hlength, true_and, Nat.add_sub_cancel]
  by_cases hempty : stem = ""
  · simp [hempty]
  · have hpos : stem.toList.length ≠ 0 := by
      intro hzero
      exact hempty (String.toList_eq_nil_iff.mp (List.eq_nil_of_length_eq_zero hzero))
    rw [if_pos (by omega), if_neg hempty, String.toList_append, List.take_left, String.ofList_toList]

theorem stem?_eq_some {name stem : String} (h : stem? name = some stem) :
    name = stem ++ ".json" := by
  unfold stem? at h
  simp only at h
  split at h
  · rename_i hsuffix
    obtain ⟨front, hfront⟩ := List.isSuffixOf_iff_suffix.mp hsuffix.1
    obtain rfl := Option.some.inj h
    rw [← String.toList_inj, String.toList_append, String.toList_ofList, ← hfront,
      List.length_append, Nat.add_sub_cancel, List.take_left]
  · cases h

/-- No loader looks at the file of a test whose name has no letter or digit. -/
theorem stem?_fileName (test : String) :
    stem? (fileName test) = if sanitize test = "" then none else some (sanitize test) :=
  stem?_json (sanitize test)

theorem Record.carries {α : Type} {value : Codec α} {r : Record α} (htime : r.recordedAt.Proper)
    (h : value.list.Carries r.values) : (Record.codec value).Carries r :=
  Codec.carries_record "FixtureFile" (by simp [Fields.required, Fields.names])
    ⟨Codec.carries_string r.test, Instant.carries htime, h, trivial⟩ rfl

namespace Store
variable {α : Type} {value : Codec α} {files : FileTree}

theorem readValues_ok {file : Folder} {r : Record α} (hcarries : (Record.codec value).Carries r)
    (h : files.get? file.path = some (.file (.json ((Record.codec value).encode r)))) :
    readValues value files file = .ok r.values := by
  have hread : files.readFile file.path = some (.json ((Record.codec value).encode r)) :=
    FileTree.readFile_eq_some.mpr h
  simp [readValues, hread, FileBody.document?, hcarries.plain]

/-- Files that can be read are read with their stems, in the order in which they are listed. -/
theorem readFiles_ok {folder : Folder} {names : List String} (h : ∀ name ∈ names, ∃ stem values,
      stem? name = some stem ∧ readValues value files (folder.child name) = .ok values) :
    ∃ l, readFiles value files folder names = .ok l ∧ l.map Prod.fst = names.filterMap stem? ∧
      ∀ stem values, (stem, values) ∈ l ↔ ∃ name ∈ names, stem? name = some stem ∧
        readValues value files (folder.child name) = .ok values := by
  induction names with
  | nil => exact ⟨[], rfl, rfl, by simp⟩
  | cons name names ih =>
    obtain ⟨stem, values, hstem, hvalues⟩ := h name List.mem_cons_self
    obtain ⟨l, hl, hkeys, hmem⟩ := ih (fun n hn => h n (List.mem_cons_of_mem name hn))
    refine ⟨(stem, values) :: l, ?_, ?_, fun stem' values' => ?_⟩
    · simp only [readFiles, hstem, hvalues, hl, Except.map]
    · rw [List.map_cons, List.filterMap_cons_some hstem, hkeys]
    · simp only [List.mem_cons, exists_eq_or_imp, hmem, hstem, hvalues, Prod.mk.injEq,
        Option.some.injEq, Except.ok.injEq, @eq_comm _ stem', @eq_comm _ values']

/-- Where names are distinct each changes its own entry. -/
theorem get?_foldl_update (change : α → Entry → Entry) {l : List (String × α)}
    (hkeys : (l.map Prod.fst).Nodup) (m : SortedMap String Entry) (k : String) :
    (∀ v, (k, v) ∈ l → (l.foldl (fun m x => update m x.1 (change x.2)) m).get? k =
      some (change v ((m.get? k).getD {}))) ∧
    ((∀ v, (k, v) ∉ l) → (l.foldl (fun m x => update m x.1 (change x.2)) m).get? k = m.get? k) := by
  induction l generalizing m with
  | nil => simp
  | cons x l ih =>
    rw [List.map_cons, List.nodup_cons] at hkeys
    obtain ⟨hfound, hother⟩ := ih hkeys.2 (update m x.1 (change x.2))
    have hfresh : ∀ v, (x.1, v) ∉ l := fun v hv => hkeys.1 (List.mem_map.mpr ⟨_, hv, rfl⟩)
    constructor
    · intro v hv
      rcases List.mem_cons.mp hv with rfl | hv
      · rw [List.foldl_cons, hother hfresh, update, SortedMap.get?_insert, if_pos rfl]
      · have hne : x.1 ≠ k := fun heq => hfresh v (heq ▸ hv)
        rw [List.foldl_cons, hfound v hv, update, SortedMap.get?_insert, if_neg hne]
    · intro hnone
      have hne : x.1 ≠ k := fun heq => hnone x.2 (heq ▸ List.mem_cons_self)
      rw [List.foldl_cons, hother (fun v hv => hnone v (List.mem_cons_of_mem x hv)), update,
        SortedMap.get?_insert, if_neg hne]

/-- The values of a channel whose folder is listed in a given order. -/
def readListed (value : Codec α) (files : FileTree) (root : Folder) (c : Channel)
    (names : List String) : Except FileError (List (String × List α)) :=
  let folder := root.child c.folder
  if files.isDirectory folder.path then readFiles value files folder names else .ok []

/-- Loads a folder whose channels are listed in a given order. -/
def loadListed (listing : Channel → List String) (files : FileTree) (root : Folder) :
    Except FileError Store :=
  match readListed Codec.int64 files root .gas (listing .gas) with
  | .error e => .error e
  | .ok gas =>
    match readListed Cid.codec files root .stateRoot (listing .stateRoot) with
    | .error e => .error e
    | .ok roots =>
      let entries := gas.foldl (fun m (name, gas) => update m name (fun e => { e with gas })) .empty
      let entries :=
        roots.foldl (fun m (name, roots) => update m name (fun e => { e with roots })) entries
      .ok { root := some root, entries }

/-- A tree lists its names in their own order. -/
theorem load_eq_loadListed (files : FileTree) (root : Folder) :
    load files root = loadListed (fun c => files.children (root.child c.folder).path) files root :=
  rfl

/-- A channel with the file of one test alone. -/
theorem readChannel_single {root : Folder} {c : Channel} {test : String} {r : Record α}
    (hfolder : files.get? (root.child c.folder).path = some .directory)
    (hchildren : files.children (root.child c.folder).path = [fileName test])
    (hcarries : (Record.codec value).Carries r)
    (h : files.get? ((root.child c.folder).child (fileName test)).path =
      some (.file (.json ((Record.codec value).encode r)))) :
    readChannel value files root c =
      .ok (if sanitize test = "" then [] else [(sanitize test, r.values)]) := by
  have hvalues := readValues_ok hcarries h
  unfold readChannel
  simp only [FileTree.isDirectory_iff.mpr hfolder, hchildren, ↓reduceIte, readFiles,
    stem?_fileName]
  by_cases hempty : sanitize test = ""
  · simp [hempty]
  · simp [hempty, hvalues, Except.map]

end Store

namespace Writer
variable {w : Writer} {test : String} {e : Entry} {before after : FileTree}

/-- Where nothing lay below a writer's folder, a channel has one file after a write. -/
theorem Written.children (h : Written w test e before after)
    (hempty : before.EmptyBelow w.root.path) (c : Channel) :
    after.children (w.folder c).path = [fileName test] := by
  refine FileTree.children_eq_singleton (fun name => ?_)
  change (after.get? (w.place c name)).isSome = true ↔ name = fileName test
  by_cases hfile : name = fileName test
  · simp [hfile, h.file c]
  · by_cases htemp : name = tempName test
    · subst htemp
      simp [h.temp c, hfile]
    · obtain ⟨hbelow, hne⟩ := w.place_below c name
      have hnone := hempty _ hbelow hne
      have hother := h.other (w.place c name) (fun d =>
        ⟨fun heq => hfile (place_inj.mp heq).2, fun heq => htemp (place_inj.mp heq).2,
          not_place_prefix⟩)
      simp [hother, hnone, hfile]

/-- The store of a folder that held nothing before a write. -/
theorem Written.load (h : Written w test e before after) (hempty : before.EmptyBelow w.root.path)
    (htime : w.time.Proper) :
    ∃ store, Store.load after w.root = .ok store ∧
      store.get? test = if sanitize test = "" then none else some e := by
  have hfolder : ∀ c, after.get? (w.folder c).path = some .directory :=
    fun c => h.folder c _ (List.prefix_refl _)
  have hgas := Store.readChannel_single (c := .gas) (r := ⟨test, w.time, e.gas⟩) (hfolder .gas)
    (h.children hempty .gas)
    (Record.carries htime (Codec.carries_list (fun n _ => Codec.carries_int64 n))) (h.file .gas)
  have hroots := Store.readChannel_single (c := .stateRoot) (r := ⟨test, w.time, e.roots⟩)
    (hfolder .stateRoot) (h.children hempty .stateRoot)
    (Record.carries htime (Codec.carries_list (fun c _ => Cid.carries c))) (h.file .stateRoot)
  unfold Store.load
  rw [hgas, hroots]
  refine ⟨_, rfl, ?_⟩
  unfold Store.get?
  by_cases hname : sanitize test = ""
  · simp [hname]
  · simp [hname, Store.update, SortedMap.get?_insert]

end Writer
end Fixture
end Conformance

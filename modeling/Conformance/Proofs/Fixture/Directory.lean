import Mathlib.Data.List.Dedup
import Mathlib.Data.List.Induction
import Mathlib.Data.List.Nodup
import Conformance.Proofs.Fixture.Halting
import Conformance.Proofs.Fixture.Loading

namespace Conformance

/-- Of several entries with a key the last stays. -/
theorem SortedMap.get?_ofList {κ α : Type} [MapKey κ] [DecidableEq κ] (es : List (κ × α)) (k : κ) :
    (SortedMap.ofList es).get? k = ((es.filter (fun e => e.1 = k)).getLast?).map Prod.snd := by
  induction es using List.reverseRecOn with
  | nil => rfl
  | append_singleton es e ih =>
    have hlast : SortedMap.ofList (es ++ [e]) = (SortedMap.ofList es).insert e.1 e.2 := by
      simp only [SortedMap.ofList, List.foldl_append, List.foldl_cons, List.foldl_nil]
    rw [hlast, SortedMap.get?_insert, List.filter_append]
    by_cases he : e.1 = k
    · simp [he]
    · simp [he, ih]

namespace Fixture

/-- A write of an entry at some time. -/
structure Writing where
  time : Instant
  test : String
  entry : Entry

/-- The last write for a test with a sanitized name. -/
def latest (xs : List Writing) (name : String) : Option Writing :=
  (xs.filter (fun x => sanitize x.test = name)).getLast?

theorem latest_append_self (xs : List Writing) (x : Writing) :
    latest (xs ++ [x]) (sanitize x.test) = some x := by
  simp [latest]

theorem latest_append_of_ne (xs : List Writing) {x : Writing} {name : String}
    (h : sanitize x.test ≠ name) : latest (xs ++ [x]) name = latest xs name := by
  simp [latest, h]

theorem mem_of_latest {xs : List Writing} {x : Writing} {name : String}
    (h : latest xs name = some x) : x ∈ xs ∧ sanitize x.test = name := by
  simpa using List.mem_filter.mp (List.mem_of_getLast? h)

theorem stem_of_latest {xs : List Writing} (hplain : ∀ x ∈ xs, sanitize x.test ≠ "")
    {x : Writing} {name : String} (h : latest xs name = some x) :
    stem? (name ++ ".json") = some name := by
  obtain ⟨hmem, hname⟩ := mem_of_latest h
  rw [stem?_json, if_neg (hname ▸ hplain x hmem)]

theorem isSome_latest {xs : List Writing} {name : String} :
    (latest xs name).isSome = true ↔ ∃ x ∈ xs, sanitize x.test = name := by
  simp [latest]

theorem get?_ofEntries (xs : List Writing) (name : String) :
    (Store.ofEntries (xs.map (fun x => (x.test, x.entry)))).entries.get? name =
      (latest xs name).map Writing.entry := by
  simp only [Store.ofEntries, SortedMap.get?_ofList, latest, List.map_map, List.filter_map,
    List.getLast?_map, Option.map_map]
  rfl

namespace Writing

/-- Who writes below a root at that time. -/
def writer (x : Writing) (root : Folder) : Writer := { root, time := x.time }

/-- What is written to the file of a channel. -/
def body (x : Writing) (c : Channel) : FileBody := (x.writer default).body x.test x.entry c

/-- Writes some entries in turn, up to a failure. -/
def writeAll (root : Folder) : List Writing → FileTree → Except FileError Unit × FileTree
  | [], files => (.ok (), files)
  | x :: xs, files =>
    match (x.writer root).write x.test x.entry files with
    | (.error e, files) => (.error e, files)
    | (.ok (), files) => writeAll root xs files

end Writing

/-- Where a name lies in a channel below a root. -/
def slot (root : Folder) (c : Channel) (name : String) : Path :=
  ((root.child c.folder).child name).path

section Slot
variable {root : Folder} {c d : Channel} {m n : String}

theorem slot_inj : slot root c m = slot root d n ↔ c = d ∧ m = n :=
  @Writer.place_inj ⟨root, default⟩ c d m n

theorem slot_below (root : Folder) (c : Channel) (name : String) :
    root.path <+: slot root c name ∧ slot root c name ≠ root.path :=
  Writer.place_below ⟨root, default⟩ c name

theorem not_slot_prefix : ¬ slot root c n <+: (root.child d.folder).path :=
  @Writer.not_place_prefix ⟨root, default⟩ c d n

theorem slot_ne_folder (root : Folder) (c d : Channel) (name : String) :
    slot root c name ≠ (root.child d.folder).path := by
  intro heq
  have hlength := congrArg List.length heq
  simp [slot, Folder.child] at hlength

theorem folder_below (root : Folder) (c : Channel) :
    root.path <+: (root.child c.folder).path ∧ (root.child c.folder).path ≠ root.path := by
  simp [Folder.child]

/-- On the way to a channel there is its folder, and else only what is on the way to the root. -/
theorem prefix_folder {q : Path} (h : q <+: (root.child c.folder).path) :
    q = (root.child c.folder).path ∨ q <+: root.path :=
  List.prefix_concat_iff.mp h

end Slot

/-- What lies below a root after some writes: the folders of the channels, and in them the files of
the last write under each name. -/
structure Holds (root : Folder) (xs : List Writing) (files : FileTree) : Prop where
  free : files.blocked root.path = false
  folder : ∀ c : Channel, files.get? (root.child c.folder).path =
    if xs.isEmpty then none else some .directory
  file : ∀ c name, files.get? (slot root c (name ++ ".json")) =
    (latest xs name).map (fun x => .file (x.body c))
  others : ∀ q, root.path <+: q → q ≠ root.path →
    (∀ c : Channel, q ≠ (root.child c.folder).path) →
    (∀ c name, q ≠ slot root c (name ++ ".json")) → files.get? q = none

namespace Holds
variable {root : Folder} {xs : List Writing} {files : FileTree}

theorem empty (hfree : files.blocked root.path = false) (hempty : files.EmptyBelow root.path) :
    Holds root [] files where
  free := hfree
  folder c := hempty _ (folder_below root c).1 (folder_below root c).2
  file c _ := hempty _ (slot_below root c _).1 (slot_below root c _).2
  others q hbelow hne _ _ := hempty q hbelow hne

/-- Nothing but a file lies in a channel. -/
theorem not_directory (h : Holds root xs files) (c : Channel) (name : String) :
    files.isDirectory (slot root c name) = false := by
  rw [← Bool.not_eq_true, FileTree.isDirectory_iff]
  by_cases hjson : ∃ stem, name = stem ++ ".json"
  · obtain ⟨stem, rfl⟩ := hjson
    rw [h.file]
    cases latest xs stem <;> simp
  · have hother : ∀ d stem, slot root c name ≠ slot root d (stem ++ ".json") :=
      fun d stem heq => hjson ⟨stem, (slot_inj.mp heq).2⟩
    rw [h.others _ (slot_below root c name).1 (slot_below root c name).2
      (slot_ne_folder root c · name) hother]
    simp

/-- No file stands in the way of a channel. -/
theorem folder_free (h : Holds root xs files) (c : Channel) :
    files.blocked (root.child c.folder).path = false := by
  rw [← Bool.not_eq_true, FileTree.blocked_iff]
  rintro ⟨q, hq, hread⟩
  rcases prefix_folder hq with rfl | hq
  · obtain ⟨body, hbody⟩ := Option.isSome_iff_exists.mp hread
    have hfile := FileTree.readFile_eq_some.mp hbody
    rw [h.folder] at hfile
    split at hfile <;> cases hfile
  · have hblocked := FileTree.blocked_iff.mpr ⟨q, hq, hread⟩
    rw [h.free] at hblocked
    cases hblocked

/-- Nothing stands in the way of the next write. -/
theorem halt?_eq_none (h : Holds root xs files) (x : Writing) :
    (x.writer root).halt? x.test files = none := by
  refine List.find?_eq_none.mpr fun halt _ => ?_
  rw [Bool.not_eq_true]
  cases halt with
  | making c => exact h.folder_free c
  | staging c => exact h.not_directory c _
  | placing c => exact h.not_directory c _

/-- A write succeeds and is the last under its name. -/
theorem step (h : Holds root xs files) (x : Writing) :
    ∃ after, (x.writer root).write x.test x.entry files = (.ok (), after) ∧
      Holds root (xs ++ [x]) after := by
  obtain ⟨after, hwrite⟩ := Writer.write_fine x.entry (h.halt?_eq_none x)
  have hwritten := Writer.write_ok hwrite
  -- Whatever is neither a file of this test nor on the way to one is as before.
  have hkept : ∀ q, (∀ c, q ≠ slot root c (fileName x.test)) →
      (∀ c, q ≠ slot root c (tempName x.test)) →
      (∀ c : Channel, ¬ q <+: (root.child c.folder).path) → after.get? q = files.get? q :=
    fun q hfile htemp hfolder => hwritten.other q (fun c => ⟨hfile c, htemp c, hfolder c⟩)
  refine ⟨after, hwrite, ?_⟩
  constructor
  case free =>
    rw [← Bool.not_eq_true, FileTree.blocked_iff]
    rintro ⟨q, hq, hread⟩
    have hdirectory := hwritten.folder .gas q (hq.trans (folder_below root .gas).1)
    rw [FileTree.readFile_of_directory hdirectory] at hread
    cases hread
  case folder =>
    intro c
    rw [if_neg (by simp)]
    exact hwritten.folder c _ (List.prefix_refl _)
  case file =>
    intro c name
    by_cases hname : sanitize x.test = name
    · subst hname
      rw [latest_append_self]
      exact hwritten.file c
    · rw [latest_append_of_ne xs hname, ← h.file c name]
      refine hkept _ (fun d heq => ?_) (fun d heq => ?_) (fun d => not_slot_prefix)
      · exact hname (String.append_left_inj _ |>.mp (slot_inj.mp heq).2).symm
      · exact json_ne_tempName name x.test (slot_inj.mp heq).2
  case others =>
    intro q hbelow hne hfolder hfile
    by_cases htemp : ∃ c, q = slot root c (tempName x.test)
    · obtain ⟨c, rfl⟩ := htemp
      exact hwritten.temp c
    · rw [← h.others q hbelow hne hfolder hfile]
      refine hkept q (fun c => hfile c _) (fun c heq => htemp ⟨c, heq⟩) (fun c hq => ?_)
      rcases prefix_folder hq with heq | hq
      · exact hfolder c heq
      · exact hne (hbelow.eq_of_length_le hq.length_le).symm

/-- Any number of writes succeed. -/
theorem run (h : Holds root xs files) (ys : List Writing) :
    ∃ after, Writing.writeAll root ys files = (.ok (), after) ∧ Holds root (xs ++ ys) after := by
  induction ys generalizing xs files with
  | nil => exact ⟨files, rfl, by rwa [List.append_nil]⟩
  | cons y ys ih =>
    obtain ⟨mid, hwrite, hmid⟩ := h.step y
    obtain ⟨after, hall, hafter⟩ := ih hmid
    refine ⟨after, ?_, ?_⟩
    · simp only [Writing.writeAll, hwrite, hall]
    · rwa [List.append_assoc, List.singleton_append] at hafter

/-- No name of a file that is staged is in use. -/
theorem temp_eq_none (h : Holds root xs files) (c : Channel) (test : String) :
    files.get? (slot root c (tempName test)) = none := by
  exact h.others _ (slot_below root c _).1 (slot_below root c _).2 (slot_ne_folder root c · _)
    (fun d stem heq => json_ne_tempName stem test (slot_inj.mp heq).2.symm)

/-- Every file below the root belongs to a test that was written. -/
theorem file_of_read (h : Holds root xs files) {q : Path} (hbelow : root.path <+: q)
    (hread : (files.readFile q).isSome = true) :
    ∃ x ∈ xs, ∃ c, q = slot root c (fileName x.test) := by
  obtain ⟨body, hbody⟩ := Option.isSome_iff_exists.mp hread
  have hfile := FileTree.readFile_eq_some.mp hbody
  by_contra hnot
  have hne : q ≠ root.path := by
    rintro rfl
    have hblocked := FileTree.blocked_iff.mpr ⟨root.path, List.prefix_refl _, hread⟩
    rw [h.free] at hblocked
    cases hblocked
  have hfolder : ∀ c : Channel, q ≠ (root.child c.folder).path := by
    rintro c rfl
    rw [h.folder] at hfile
    split at hfile <;> cases hfile
  have hnone := h.others q hbelow hne hfolder (fun c name heq => ?_)
  · cases hnone.symm.trans hfile
  · subst heq
    rw [h.file, Option.map_eq_some_iff] at hfile
    obtain ⟨x, hx, _⟩ := hfile
    obtain ⟨hmem, rfl⟩ := mem_of_latest hx
    exact hnot ⟨x, hmem, c, rfl⟩

theorem mem_children (h : Holds root xs files) {c : Channel} {name : String} :
    name ∈ files.children (root.child c.folder).path ↔
      ∃ stem x, latest xs stem = some x ∧ name = stem ++ ".json" := by
  rw [FileTree.mem_children]
  change (files.get? (slot root c name)).isSome = true ↔ _
  constructor
  · intro hsome
    by_contra hnot
    have hnone := h.others (slot root c name) (slot_below root c name).1 (slot_below root c name).2
      (slot_ne_folder root c · name) (fun d stem heq => ?_)
    · rw [hnone] at hsome
      cases hsome
    · rw [heq, h.file, Option.isSome_map] at hsome
      obtain ⟨x, hx⟩ := Option.isSome_iff_exists.mp hsome
      exact hnot ⟨stem, x, hx, (slot_inj.mp heq).2⟩
  · rintro ⟨stem, x, hx, rfl⟩
    rw [h.file, hx]
    rfl

/-- A channel has its folder once anything was written. -/
theorem eq_nil (h : Holds root xs files) {c : Channel}
    (hfolder : files.isDirectory (root.child c.folder).path = false) : xs = [] := by
  by_contra hne
  have hthere : files.get? (root.child c.folder).path = some .directory := by
    rw [h.folder, if_neg (by simpa using hne)]
  cases hfolder.symm.trans (FileTree.isDirectory_iff.mpr hthere)

section Loading
variable (h : Holds root xs files) (hplain : ∀ x ∈ xs, sanitize x.test ≠ "")
include h hplain

/-- A channel is read as the last values under each name, whatever the order of its files. -/
theorem readListed {α : Type} (value : Codec α) (content : Writing → List α) (c : Channel)
    (hbody : ∀ x : Writing, x.body c =
      .json ((Record.codec value).encode ⟨x.test, x.time, content x⟩))
    (hcarries : ∀ x ∈ xs, (Record.codec value).Carries ⟨x.test, x.time, content x⟩)
    {names : List String} (hnames : names.Perm (files.children (root.child c.folder).path)) :
    ∃ l, Store.readListed value files root c names = .ok l ∧ (l.map Prod.fst).Nodup ∧
      ∀ stem values, (stem, values) ∈ l ↔ ∃ x, latest xs stem = some x ∧ content x = values := by
  have hlisted : ∀ name, name ∈ names ↔
      ∃ stem x, latest xs stem = some x ∧ name = stem ++ ".json" :=
    fun name => hnames.mem_iff.trans h.mem_children
  have hstem : ∀ stem x, latest xs stem = some x → stem? (stem ++ ".json") = some stem :=
    fun stem x hx => stem_of_latest hplain hx
  have hvalues : ∀ stem x, latest xs stem = some x →
      Store.readValues value files ((root.child c.folder).child (stem ++ ".json")) =
        .ok (content x) := by
    intro stem x hx
    refine Store.readValues_ok (hcarries x (mem_of_latest hx).1) ?_
    rw [← hbody]
    exact (h.file c stem).trans (by rw [hx]; rfl)
  cases hfolder : files.isDirectory (root.child c.folder).path with
  | false =>
    obtain rfl := h.eq_nil hfolder
    exact ⟨[], by simp [Store.readListed, hfolder], List.nodup_nil, by simp [latest]⟩
  | true =>
    have hread : ∀ name ∈ names, ∃ stem values, stem? name = some stem ∧
        Store.readValues value files ((root.child c.folder).child name) = .ok values := by
      intro name hname
      obtain ⟨stem, x, hx, rfl⟩ := (hlisted name).mp hname
      exact ⟨stem, content x, hstem stem x hx, hvalues stem x hx⟩
    obtain ⟨l, hl, hkeys, hmem⟩ := Store.readFiles_ok hread
    refine ⟨l, ?_, ?_, fun stem values => ?_⟩
    · rw [Store.readListed]
      simp only [hfolder, ↓reduceIte, hl]
    · rw [hkeys]
      refine List.Nodup.filterMap ?_ (hnames.nodup_iff.mpr (files.nodup_children _))
      intro m n stem hm hn
      rw [stem?_eq_some hm, stem?_eq_some hn]
    · rw [hmem]
      constructor
      · rintro ⟨name, hname, hstem', hread⟩
        obtain ⟨stem', x, hx, rfl⟩ := (hlisted name).mp hname
        obtain rfl := Option.some.inj ((hstem stem' x hx).symm.trans hstem')
        exact ⟨x, hx, Except.ok.inj ((hvalues stem' x hx).symm.trans hread)⟩
      · rintro ⟨x, hx, rfl⟩
        exact ⟨_, (hlisted _).mpr ⟨stem, x, hx, rfl⟩, hstem stem x hx, hvalues stem x hx⟩

/-- The folder is loaded as the store of what was written. -/
theorem load (htime : ∀ x ∈ xs, x.time.Proper) {listing : Channel → List String}
    (hlisting : ∀ c, (listing c).Perm (files.children (root.child c.folder).path)) :
    Store.loadListed listing files root =
      .ok { root := some root,
            entries := (Store.ofEntries (xs.map (fun x => (x.test, x.entry)))).entries } := by
  obtain ⟨gas, hgas, hgasKeys, hgasMem⟩ :=
    h.readListed hplain Codec.int64 (·.entry.gas) .gas (fun _ => rfl)
      (fun x hx => Record.carries (htime x hx)
        (Codec.carries_list (fun n _ => Codec.carries_int64 n))) (hlisting .gas)
  obtain ⟨roots, hroots, hrootsKeys, hrootsMem⟩ :=
    h.readListed hplain Cid.codec (·.entry.roots) .stateRoot (fun _ => rfl)
      (fun x hx => Record.carries (htime x hx)
        (Codec.carries_list (fun c _ => Cid.carries c))) (hlisting .stateRoot)
  simp only [Store.loadListed, hgas, hroots, Except.ok.injEq, Store.mk.injEq, true_and]
  refine SortedMap.ext_get? fun name => ?_
  obtain ⟨hgasFound, hgasOther⟩ :=
    Store.get?_foldl_update (fun gas e => { e with gas }) hgasKeys .empty name
  obtain ⟨hrootsFound, hrootsOther⟩ :=
    Store.get?_foldl_update (fun roots e => { e with roots }) hrootsKeys
      (gas.foldl (fun m x => Store.update m x.1 (fun e => { e with gas := x.2 })) .empty) name
  rw [get?_ofEntries]
  cases hx : latest xs name with
  | some x =>
    rw [hrootsFound x.entry.roots ((hrootsMem _ _).mpr ⟨x, hx, rfl⟩),
      hgasFound x.entry.gas ((hgasMem _ _).mpr ⟨x, hx, rfl⟩)]
    rfl
  | none =>
    have hnone : ∀ y, latest xs name ≠ some y := by simp [hx]
    rw [hrootsOther, hgasOther]
    · rfl
    · intro gas hmem
      obtain ⟨y, hy, _⟩ := (hgasMem _ _).mp hmem
      exact hnone y hy
    · intro roots hmem
      obtain ⟨y, hy, _⟩ := (hrootsMem _ _).mp hmem
      exact hnone y hy

end Loading
end Holds

/-- From a folder with nothing in it, any number of writes succeed, for tests with a letter or digit
in their names, and leave the files of these tests and no others. Whatever order they are listed in,
they are loaded as the store of the same entries: under each sanitized name that was written there
is the entry of the last write. -/
theorem store_of_writes {root : Folder} {files : FileTree}
    (hfree : files.blocked root.path = false) (hempty : files.EmptyBelow root.path)
    {xs : List Writing} (htime : ∀ x ∈ xs, x.time.Proper)
    (hplain : ∀ x ∈ xs, x.test.toList.any isPlain = true) :
    ∃ after, Writing.writeAll root xs files = (.ok (), after) ∧
      (∀ q, root.path <+: q → (after.readFile q).isSome = true →
        ∃ x ∈ xs, ∃ c, q = slot root c (fileName x.test)) ∧
      (∀ c test, after.get? (slot root c (tempName test)) = none) ∧
      ∃ store,
        (∀ listing : Channel → List String,
          (∀ c, (listing c).Perm (after.children (root.child c.folder).path)) →
          Store.loadListed listing after root = .ok store) ∧
        Store.load after root = .ok store ∧
        (∀ name, store.get? name =
          ((xs.filter (fun x => sanitize x.test = sanitize name)).getLast?).map Writing.entry) ∧
        store.tests.Perm (xs.map (fun x => sanitize x.test)).dedup ∧
        store.entries = (Store.ofEntries (xs.map (fun x => (x.test, x.entry)))).entries := by
  obtain ⟨after, hall, hafter⟩ := (Holds.empty hfree hempty).run xs
  rw [List.nil_append] at hafter
  have hnamed : ∀ x ∈ xs, sanitize x.test ≠ "" := by
    intro x hx hname
    rw [sanitize_eq_empty, hplain x hx] at hname
    cases hname
  refine ⟨after, hall, fun q => hafter.file_of_read, hafter.temp_eq_none,
    ⟨root, (Store.ofEntries (xs.map (fun x => (x.test, x.entry)))).entries⟩,
    fun listing => hafter.load hnamed htime, ?_, ?_, ?_, rfl⟩
  · rw [Store.load_eq_loadListed]
    exact hafter.load hnamed htime (fun c => .refl _)
  · intro name
    exact get?_ofEntries xs (sanitize name)
  · refine (List.perm_ext_iff_of_nodup (SortedMap.nodup_keys _) (List.nodup_dedup _)).mpr
      fun name => ?_
    rw [SortedMap.mem_keys, get?_ofEntries, Option.isSome_map, isSome_latest,
      List.mem_dedup, List.mem_map]

/-- Two tests with one sanitized name, the second of which recorded nothing, and another test. -/
def shelf : List Writing :=
  [{ time := { seconds := 1700000000 }, test := "a::pay", entry := { gas := [130, 268] } },
   { time := { seconds := 1700000001 }, test := "a::lend", entry := { gas := [130] } },
   { time := { seconds := 1700000002 }, test := "apay", entry := {} }]

theorem store_of_writes_shelf : ∃ after store, Writing.writeAll default shelf {} = (.ok (), after) ∧
    Store.loadListed (fun c => (after.children [c.folder]).reverse) after default = .ok store ∧
    store.tests.length = 2 ∧ store.get? "a-pay" = some {} ∧
    store.get? "alend" = some { gas := [130] } ∧ store.get? "a" = none := by
  have hempty : FileTree.EmptyBelow {} (default : Folder).path := by
    intro q _ hne
    exact (FileTree.get?_of_ne _ hne).trans (SortedMap.get?_empty q)
  have htime : ∀ x ∈ shelf, x.time.Proper := by
    intro x hx
    simp only [shelf, List.mem_cons, List.not_mem_nil, or_false] at hx
    rcases hx with rfl | rfl | rfl <;> constructor <;> decide +kernel
  obtain ⟨after, hall, _, _, store, hloads, _, hget, htests, _⟩ :=
    store_of_writes (by decide +kernel) hempty htime (by decide +kernel)
  exact ⟨after, store, hall, hloads _ (fun _ => List.reverse_perm _),
    htests.length_eq.trans (by decide +kernel), (hget _).trans (by decide +kernel),
    (hget _).trans (by decide +kernel), (hget _).trans (by decide +kernel)⟩

end Fixture
end Conformance

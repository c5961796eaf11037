import DiceScript.Proofs.Command.SingleRuns
import DiceScript.Proofs.Persistence.Rotation
import Mathlib.Data.String.Basic
import Mathlib.Order.Bounds.Basic

/-!
# What a library binds

A library is put together from many files, and nothing says in which order a disk lists them. The
order in which they are read is that of their names from the directory down, name by name, so it is
the same for every listing, and what a name is bound to can be told without any order: the greatest
file that binds the name decides.

- `FileTree.Relisted` — a tree with the same entries, listed in another order.
- `fileBindings` — what one file of a library holds.
- `LibraryOf` — what reading a library comes to, told by the files alone.
- `Starts` — the store that an interpreter is opened with, before its library.
- `library_of_any_listing` — reading a library comes to the same for every listing, and an interpreter
  is opened with this library in place of whatever core tier was saved.
-/

namespace DiceScript

open Files (FileTree Place Entry Disk)

/-! ## Listings -/

namespace Files.FileTree

variable {t u : FileTree} {path : String}

/-- The same entries in another order. -/
structure Relisted (t u : FileTree) : Prop where
  here : u.here = t.here
  entries : u.entries.Perm t.entries

/-- Where no place has two entries, the one that is found does not depend on the order. -/
theorem mem_entries_iff_lookup (h : t.Distinct) {p : Place} {e : Entry} :
    t.entries.lookup p = some e ↔ (p, e) ∈ t.entries := by
  unfold Distinct at h
  generalize t.entries = entries at h ⊢
  induction entries with
  | nil => simp
  | cons entry rest ih =>
    obtain ⟨q, f⟩ := entry
    obtain ⟨hfresh, hrest⟩ := List.nodup_cons.mp h
    rw [Assoc.lookup_cons_ite, List.mem_cons, Prod.mk.injEq]
    split
    · rename_i hp
      subst hp
      have hother : (p, e) ∉ rest := fun hmem => hfresh (List.mem_map.mpr ⟨_, hmem, rfl⟩)
      simp [hother, eq_comm]
    · rename_i hp
      simp [hp, ih hrest]

namespace Relisted

theorem distinct (h : Relisted t u) (ht : t.Distinct) : u.Distinct :=
  (h.entries.map Prod.fst).nodup_iff.mpr ht

theorem find?_eq (h : Relisted t u) (ht : t.Distinct) (p : Place) : u.find? p = t.find? p := by
  have hlookup : u.entries.lookup p = t.entries.lookup p := by
    ext e
    rw [mem_entries_iff_lookup (h.distinct ht), mem_entries_iff_lookup ht, h.entries.mem_iff]
  rw [find?, find?, isAbove, isAbove, h.here, hlookup]

theorem follow?_eq (h : Relisted t u) (ht : t.Distinct) (p : Place) (parts : List String) :
    u.follow? p parts = t.follow? p parts := by
  induction parts generalizing p with
  | nil => rfl
  | cons part rest ih =>
    unfold follow?
    rw [isDirectoryAt, isDirectoryAt, h.find?_eq ht, ih, ih, ih]

theorem locate?_eq (h : Relisted t u) (ht : t.Distinct) (path : String) :
    u.locate? path = t.locate? path := by
  rw [locate?, locate?, start, start, h.here, h.follow?_eq ht]

theorem lookup?_eq (h : Relisted t u) (ht : t.Distinct) (path : String) :
    u.lookup? path = t.lookup? path := by
  have hfind : u.find? = t.find? := funext (h.find?_eq ht)
  rw [lookup?, lookup?, h.locate?_eq ht, hfind]

theorem readText_eq (h : Relisted t u) (ht : t.Distinct) (path : String) :
    u.readText path = t.readText path := by
  rw [readText, readText, h.lookup?_eq ht]

theorem entriesBelow_perm (h : Relisted t u) (dir : Place) (wanted : Entry → Bool) :
    (u.entriesBelow dir wanted).Perm (t.entriesBelow dir wanted) :=
  h.entries.filterMap _

/-- The same files are below a directory, in some order. -/
theorem exists_filesBelow (h : Relisted t u) (ht : t.Distinct) {places : List Place}
    (hplaces : t.filesBelow path = .ok places) :
    ∃ places', u.filesBelow path = .ok places' ∧ places'.Perm places := by
  obtain ⟨dir, hdir, rfl, hall⟩ := filesBelow_cases hplaces
  refine ⟨_, ?_, h.entriesBelow_perm dir _⟩
  have hall' : ((u.entriesBelow dir (· == .directory)).map fun names =>
      Path.join path ("/".intercalate names)).all isFollowable = true := by
    rw [List.all_map, List.all_eq_true]
    intro names hnames
    exact hall names ((h.entriesBelow_perm dir _).mem_iff.mp hnames)
  unfold filesBelow
  rw [h.locate?_eq ht, hdir]
  dsimp only
  rw [if_pos hall']

end Relisted

/-- Each file below a directory is listed once. -/
theorem Distinct.nodup_filesBelow (h : t.Distinct) {places : List Place}
    (hplaces : t.filesBelow path = .ok places) : places.Nodup := by
  obtain ⟨dir, -, rfl, -⟩ := filesBelow_cases hplaces
  have hfiles : (((t.entries.filter (·.2 != .directory)).map Prod.fst).filterMap
      (below? dir)).Nodup := by
    refine List.Nodup.filterMap ?_ (h.sublist (List.filter_sublist.map Prod.fst))
    intro p q names hp hq
    rw [below?_eq_some.mp hp, below?_eq_some.mp hq]
  rw [List.filterMap_map, List.filterMap_filter] at hfiles
  exact hfiles

end Files.FileTree

/-! ## One map over another -/

theorem Dict.get?_insertMany {α : Type} {l : List (String × α)} (hl : (l.map Prod.fst).Nodup)
    (d : Dict α) (k : String) : (d.insertMany l).get? k = (l.lookup k).or (d.get? k) := by
  induction l generalizing d with
  | nil => rfl
  | cons entry rest ih =>
    obtain ⟨k', v⟩ := entry
    obtain ⟨hfresh, hrest⟩ := List.nodup_cons.mp hl
    rw [show d.insertMany ((k', v) :: rest) = (d.insert k' v).insertMany rest from rfl, ih hrest,
      Dict.get?_insert, Assoc.lookup_cons_ite]
    split
    · rename_i hk
      subst hk
      have hnone : rest.lookup k = none := by
        rw [List.lookup_eq_none_iff]
        intro entry hentry
        rw [bne_iff_ne]
        rintro rfl
        exact hfresh (List.mem_map.mpr ⟨entry, hentry, rfl⟩)
      rw [hnone, Option.none_or, Option.some_or]
    · rfl

/-- What extends a map wins over what the map had. -/
theorem Dict.get?_extend {α : Type} (d e : Dict α) (k : String) :
    (d.extend e).get? k = (e.get? k).or (d.get? k) :=
  Dict.get?_insertMany (List.pairwise_map.mpr (e.sorted.imp fun h => String.ne_of_lt h)) d k

/-! ## Libraries -/

namespace Command

variable {t u : FileTree} {dir : String} {places : List Place}

/-- What a file of a library holds, or what is wrong with it. -/
def fileBindings (t : FileTree) (dir : String) (names : List String) : Except Fault Bindings :=
  match t.readText (pathAlong dir names) with
  | .error why => .error (.host .readCore why)
  | .ok text =>
    match (Json.parse? text).bind (Bindings.ofJson? .top) with
    | none => .error (.host .decodeCore "the text is not a library")
    | some bindings => .ok bindings

section Merging

variable {held : List String → Except Fault Bindings} {files : Set (List String)}

/-- What files hold on top of a library, the later ones over the earlier ones, up to the first that
holds nothing. -/
def mergeFiles (held : List String → Except Fault Bindings) (library : Bindings) :
    List (List String) → Except Fault Bindings
  | [] => .ok library
  | names :: rest =>
    match held names with
    | .error fault => .error fault
    | .ok bindings => mergeFiles held (library.extend bindings) rest

theorem mergeFiles_concat (library : Bindings) (front : List (List String)) (last : List String) :
    mergeFiles held library (front ++ [last]) =
      match mergeFiles held library front with
      | .error fault => .error fault
      | .ok library => (held last).map library.extend := by
  induction front generalizing library with
  | nil =>
    rw [List.nil_append, mergeFiles, mergeFiles]
    cases held last <;> rfl
  | cons names rest ih =>
    rw [List.cons_append, mergeFiles, mergeFiles]
    cases held names with
    | error fault => rfl
    | ok bindings => exact ih _

theorem run_readLibraryFiles (library : Bindings) (files : List (List String)) :
    (readLibraryFiles dir library files : StateM FileTree _).run t =
      (mergeFiles (fileBindings t dir) library files, t) := by
  induction files generalizing library with
  | nil => rfl
  | cons names rest ih =>
    rw [run_readLibraryFiles_cons, mergeFiles]
    unfold fileBindings
    cases t.readText (pathAlong dir names) with
    | error why => rfl
    | ok text =>
      dsimp only
      cases (Json.parse? text).bind (Bindings.ofJson? .top) with
      | none => rfl
      | some bindings => exact ih _

def binders (held : List String → Except Fault Bindings) (files : Set (List String))
    (name : String) : Set (List String) :=
  {names | names ∈ files ∧ ∃ bindings, held names = .ok bindings ∧ bindings.get? name ≠ none}

def failures (held : List String → Except Fault Bindings) (files : Set (List String)) :
    Set (List String) :=
  {names | names ∈ files ∧ ∃ fault, held names = .error fault}

/-- What reading a library comes to. If all files hold bindings, a name is bound as in the greatest
file that binds it. Otherwise the least file that holds none tells what is wrong. -/
inductive LibraryOf (held : List String → Except Fault Bindings) (files : Set (List String)) :
    Except Fault Bindings → Prop where
  | merged {library : Bindings} (decoded : ∀ names ∈ files, ∃ bindings, held names = .ok bindings)
      (bound : ∀ name v, library.get? name = some v ↔
        ∃ names bindings, IsGreatest (binders held files name) names ∧
          held names = .ok bindings ∧ bindings.get? name = some v) :
      LibraryOf held files (.ok library)
  | failed {names : List String} {fault : Fault} (least : IsLeast (failures held files) names)
      (why : held names = .error fault) : LibraryOf held files (.error fault)

/-- A file that comes after all others wins with the names that it binds, and changes no other. -/
theorem get?_extend_iff {library bindings : Bindings} {front : List (List String)}
    {last : List String} (hbelow : ∀ names ∈ front, names ≤ last) (hheld : held last = .ok bindings)
    (bound : ∀ name v, library.get? name = some v ↔
      ∃ names b, IsGreatest (binders held {names | names ∈ front} name) names ∧
        held names = .ok b ∧ b.get? name = some v) (name : String) (v : Value) :
    (library.extend bindings).get? name = some v ↔
      ∃ names b, IsGreatest (binders held {names | names ∈ front ++ [last]} name) names ∧
        held names = .ok b ∧ b.get? name = some v := by
  rw [Dict.get?_extend]
  cases hget : bindings.get? name with
  | some w =>
    have hgreatest : IsGreatest (binders held {names | names ∈ front ++ [last]} name) last := by
      refine ⟨⟨List.mem_append_right _ (by simp), bindings, hheld, by simp [hget]⟩, ?_⟩
      rintro names ⟨hnames, -⟩
      rcases List.mem_append.mp hnames with hmem | hmem
      · exact hbelow names hmem
      · exact (List.mem_singleton.mp hmem).le
    rw [Option.some_or]
    constructor
    · intro h
      exact ⟨last, bindings, hgreatest, hheld, hget.trans h⟩
    · rintro ⟨names, b, hnames, hb, hv⟩
      obtain rfl := hnames.unique hgreatest
      obtain rfl := Except.ok.inj (hb.symm.trans hheld)
      exact hget.symm.trans hv
  | none =>
    have hsame : binders held {names | names ∈ front ++ [last]} name =
        binders held {names | names ∈ front} name := by
      ext names
      refine ⟨?_, fun h => ⟨List.mem_append_left _ h.1, h.2⟩⟩
      rintro ⟨hnames, b, hb, hne⟩
      rcases List.mem_append.mp hnames with hmem | hmem
      · exact ⟨hmem, b, hb, hne⟩
      · obtain rfl := List.mem_singleton.mp hmem
        obtain rfl := Except.ok.inj (hb.symm.trans hheld)
        exact absurd hget hne
    rw [Option.none_or, hsame]
    exact bound name v

/-- Files that are merged in order come to what the files alone tell. -/
theorem libraryOf_mergeFiles {sorted : List (List String)} (h : sorted.Pairwise (· < ·)) :
    LibraryOf held {names | names ∈ sorted} (mergeFiles held {} sorted) := by
  -- The last file is the greatest, so it wins, and it fails only when no file before it does.
  induction sorted using List.reverseRecOn with
  | nil => exact .merged (by simp) (by simp [binders, IsGreatest])
  | append_singleton front last ih =>
    obtain ⟨hfront, -, hlast⟩ := List.pairwise_append.mp h
    have hbelow : ∀ names ∈ front, names ≤ last := fun names hnames =>
      (hlast names hnames last (by simp)).le
    have hbefore := ih hfront
    rw [mergeFiles_concat]
    generalize mergeFiles held {} front = before at hbefore ⊢
    cases hbefore with
    | failed least why =>
      refine .failed ⟨⟨List.mem_append_left _ least.1.1, least.1.2⟩, ?_⟩ why
      rintro names ⟨hnames, hfault⟩
      rcases List.mem_append.mp hnames with hmem | hmem
      · exact least.2 ⟨hmem, hfault⟩
      · obtain rfl := List.mem_singleton.mp hmem
        exact hbelow _ least.1.1
    | merged decoded bound =>
      cases hheld : held last with
      | error fault =>
        refine .failed ⟨⟨List.mem_append_right _ (by simp), fault, hheld⟩, ?_⟩ hheld
        rintro names ⟨hnames, fault', hfault⟩
        rcases List.mem_append.mp hnames with hmem | hmem
        · obtain ⟨bindings, hok⟩ := decoded names hmem
          cases hfault.symm.trans hok
        · exact (List.mem_singleton.mp hmem).ge
      | ok bindings =>
        refine .merged ?_ ?_
        · intro names hnames
          rcases List.mem_append.mp hnames with hmem | hmem
          · exact decoded names hmem
          · obtain rfl := List.mem_singleton.mp hmem
            exact ⟨bindings, hheld⟩
        · exact get?_extend_iff hbelow hheld bound

end Merging

/-! ### Reading -/

/-- A library is read file by file in a strict order, if no file is listed twice. -/
theorem strictly_sorted_libraryFiles (h : places.Nodup) :
    (libraryFiles places).Pairwise (· < ·) := by
  rw [libraryFiles_eq]
  have htrans : ∀ a b c : List String, decide (¬ b < a) = true → decide (¬ c < b) = true →
      decide (¬ c < a) = true := by
    intro a b c hab hbc
    simp only [decide_eq_true_eq, not_lt] at hab hbc ⊢
    exact hab.trans hbc
  have htotal : ∀ a b : List String, (decide (¬ b < a) || decide (¬ a < b)) = true := by
    intro a b
    simp only [Bool.or_eq_true, decide_eq_true_eq, not_lt]
    exact le_total a b
  have hsorted := List.pairwise_mergeSort htrans htotal (places.filter isLibraryFile)
  have hnodup := (List.mergeSort_perm (places.filter isLibraryFile)
    fun a b => decide (¬ b < a)).nodup_iff.mpr (h.filter _)
  refine hsorted.imp₂ (fun a b hle hne => ?_) hnodup
  simp only [decide_eq_true_eq, not_lt] at hle
  exact lt_of_le_of_ne hle hne

theorem mem_libraryFiles {names : List String} :
    names ∈ libraryFiles places ↔ names ∈ places ∧ isLibraryFile names = true := by
  rw [libraryFiles_eq, List.mem_mergeSort, List.mem_filter]

theorem libraryFiles_of_perm {places' : List Place} (h : places.Nodup) (hperm : places'.Perm places) :
    libraryFiles places' = libraryFiles places := by
  refine (strictly_sorted_libraryFiles (hperm.nodup_iff.mpr h)).eq_of_mem_iff
    (strictly_sorted_libraryFiles h) fun names => ?_
  rw [mem_libraryFiles, mem_libraryFiles, hperm.mem_iff]

/-- A library is read alike from every listing of a tree. -/
theorem run_readLibrary_of_relisted (h : t.Relisted u) (hdistinct : t.Distinct)
    (hdir : t.lookup? dir = some .directory) (hwalk : t.filesBelow dir = .ok places) :
    (readLibrary dir : StateM FileTree _).run u =
      (mergeFiles (fileBindings t dir) {} (libraryFiles places), u) := by
  obtain ⟨places', hwalk', hperm⟩ := h.exists_filesBelow hdistinct hwalk
  have hheld : fileBindings u dir = fileBindings t dir := by
    funext names
    unfold fileBindings
    rw [h.readText_eq hdistinct]
  rw [run_readLibrary_of_filesBelow ((h.lookup?_eq hdistinct dir).trans hdir) hwalk',
    run_readLibraryFiles, hheld,
    libraryFiles_of_perm (hdistinct.nodup_filesBelow hwalk) hperm]

/-! ## Opening -/

section Opening

variable {setup : Setup} {store : Store}

/-- The store that is opened before a library is put into it: the one that was saved in the file, an
empty one where there is no file yet or none is asked for. -/
inductive Starts (t : FileTree) : Option String → Store → Prop where
  | unsaved : Starts t none {}
  | absent {path : String} (hnone : t.lookup? path = none) : Starts t (some path) {}
  | saved {path text : String} {image : Image} (htext : t.readText path = .ok text)
      (himage : FileMedium.decode text = .ok image) : Starts t (some path) image.store

theorem schema_of_decode {text : String} {image : Image} (h : FileMedium.decode text = .ok image) :
    image.schema = Image.currentSchema := by
  unfold FileMedium.decode at h
  split at h
  · cases h
  · split at h
    · rename_i hschema
      obtain rfl := Except.ok.inj h
      exact hschema
    · cases h

theorem openStore_file_iff {path : String} :
    ((Interpreter.openStore (.file (.ofPath path)) : StateM FileTree _).run t).1 = .ok store ↔
      Starts t (some path) store := by
  have hpath : (FileMedium.ofPath path).path = path := rfl
  rw [Interpreter.openStore_eq, FileMedium.run_load, hpath]
  constructor
  · intro h
    cases hfound : t.lookup? path with
    | none =>
      rw [hfound] at h
      obtain rfl := Except.ok.inj h
      exact .absent hfound
    | some entry =>
      rw [hfound] at h
      cases htext : t.readText path with
      | error why => simp [htext] at h
      | ok text =>
        cases himage : FileMedium.decode text with
        | error fault => simp [htext, himage, Except.map] at h
        | ok image =>
          simp only [htext, himage, Except.map, Image.restore, schema_of_decode himage, if_true,
            Except.ok.injEq] at h
          subst h
          exact .saved htext himage
  · rintro (_ | hnone | ⟨htext, himage⟩)
    · rw [hnone]
    · rename_i text image
      obtain ⟨entry, hentry⟩ : ∃ entry, t.lookup? path = some entry := by
        cases hfound : t.lookup? path with
        | none => simp [FileTree.readText, hfound] at htext
        | some entry => exact ⟨entry, rfl⟩
      simp [hentry, htext, himage, Except.map, Image.restore, schema_of_decode himage]

theorem openStore_iff {path : Option String} {medium : Option Medium} :
    ((openStore path : StateM FileTree _).run t).1 = .ok (store, medium) ↔
      Starts t path store ∧ medium = path.map fun path => .file (.ofPath path) := by
  cases path with
  | none =>
    constructor
    · intro h
      obtain ⟨rfl, rfl⟩ := Prod.mk.inj (Except.ok.inj h)
      exact ⟨.unsaved, rfl⟩
    · rintro ⟨⟨⟩, rfl⟩
      rfl
  | some path =>
    have hopen : (openStore (some path) : StateM FileTree _).run t = _ :=
      run_openStore (show ({ store := some path } : Setup).store = some path from rfl) t
    rw [hopen, ← openStore_file_iff]
    cases ((Interpreter.openStore (.file (.ofPath path)) : StateM FileTree _).run t).1 with
    | error fault => simp
    | ok saved => simp [eq_comm]

/-- An interpreter with a core directory is opened when its options, its store and its library can
be read. Its store is the saved one with the library in place of the core tier. -/
theorem openInterpreter_iff (hcore : setup.coreDir = some dir) {now : Nat} {entropy : UInt64}
    {i : Interpreter} :
    ((openInterpreter setup now entropy : StateM FileTree _).run t).1 = .ok i ↔
      ∃ options store library,
        ((readOptionsFile setup.config : StateM FileTree _).run t).1 = .ok options ∧
        Starts t setup.store store ∧
        ((readLibrary dir : StateM FileTree _).run t).1 = .ok library ∧
        i = .start { store with core := library }
          (setup.store.map fun path => .file (.ofPath path)) options now entropy := by
  unfold openInterpreter
  cases hoptions : ((readOptionsFile setup.config : StateM FileTree _).run t).1 with
  | error fault =>
    rw [run_bind_of_run ((reads_readOptionsFile setup.config).run hoptions)]
    exact ⟨fun h => (nomatch h), fun ⟨_, _, _, h, _⟩ => nomatch h⟩
  | ok options =>
    rw [run_bind_of_run ((reads_readOptionsFile setup.config).run hoptions)]
    dsimp only
    cases hstore : ((openStore setup.store : StateM FileTree _).run t).1 with
    | error fault =>
      rw [run_bind_of_run ((reads_openStore setup.store).run hstore)]
      refine ⟨fun h => (nomatch h), fun ⟨_, saved, _, _, hstarts, _⟩ => ?_⟩
      cases hstore.symm.trans (openStore_iff.mpr ⟨hstarts, rfl⟩)
    | ok opened =>
      obtain ⟨saved, medium⟩ := opened
      obtain ⟨hstarts, rfl⟩ := openStore_iff.mp hstore
      rw [run_bind_of_run ((reads_openStore setup.store).run hstore), hcore]
      dsimp only
      cases hread : ((readLibrary dir : StateM FileTree _).run t).1 with
      | error fault =>
        rw [run_bind_of_run ((reads_readLibrary dir).run hread)]
        exact ⟨fun h => (nomatch h), fun ⟨_, _, _, _, _, h, _⟩ => nomatch h⟩
      | ok library =>
        rw [run_bind_of_run ((reads_readLibrary dir).run hread)]
        constructor
        · intro h
          exact ⟨options, saved, library, rfl, hstarts, rfl, (Except.ok.inj h).symm⟩
        · rintro ⟨options', saved', library', hoptions', hstarts', hlibrary', rfl⟩
          obtain rfl := Except.ok.inj hoptions'
          obtain rfl := Except.ok.inj hlibrary'
          have hsame := hstore.symm.trans (openStore_iff.mpr ⟨hstarts', rfl⟩)
          obtain rfl := (Prod.mk.inj (Except.ok.inj hsame)).1
          rfl

end Opening

/-- Whatever the order in which a directory is listed, its library comes to the same, told by its
files alone; and an interpreter that is opened with it has exactly this library in its core tier,
with the other tiers as they were saved. -/
theorem library_of_any_listing (hdistinct : t.Distinct) (hdir : t.lookup? dir = some .directory)
    (hwalk : t.filesBelow dir = .ok places) :
    ∃ result,
      LibraryOf (fileBindings t dir) {names | names ∈ places ∧ isLibraryFile names = true} result ∧
      ∀ u, t.Relisted u →
        (readLibrary dir : StateM FileTree _).run u = (result, u) ∧
        ∀ (setup : Setup) (now : Nat) (entropy : UInt64) (i : Interpreter),
          setup.coreDir = some dir →
          (((openInterpreter setup now entropy : StateM FileTree _).run u).1 = .ok i ↔
            ∃ options store library,
              ((readOptionsFile setup.config : StateM FileTree _).run u).1 = .ok options ∧
              Starts u setup.store store ∧ result = .ok library ∧
              i = .start { store with core := library }
                (setup.store.map fun path => .file (.ofPath path)) options now entropy) := by
  have hlibrary : LibraryOf (fileBindings t dir) {names | names ∈ libraryFiles places} _ :=
    libraryOf_mergeFiles (strictly_sorted_libraryFiles (hdistinct.nodup_filesBelow hwalk))
  simp only [mem_libraryFiles] at hlibrary
  refine ⟨_, hlibrary, fun u hu => ?_⟩
  have hread := run_readLibrary_of_relisted hu hdistinct hdir hwalk
  refine ⟨hread, fun setup now entropy i hcore => ?_⟩
  rw [openInterpreter_iff hcore, hread]

/-! ### Two files that bind one name -/

def page (n : Int64) : Bindings := Dict.ofList [("x", .integer n)]

/-- Two files that bind one name. The greater one is that at the top, though the text of its path is
the lesser one. -/
def shelves : FileTree :=
  { entries := [(["core"], .directory), (["core", "a"], .directory),
      (["core", "a", "z.json"], .file (.text (page 1).toJson.compact)),
      (["core", "a.json"], .file (.text (page 2).toJson.compact))] }

theorem writable_page (n : Int64) : (page n).toJson.Writable := by
  refine Dict.writable_toJson fun name v hv => ?_
  obtain ⟨-, rfl⟩ : name = "x" ∧ v = .integer n := by simpa using Dict.mem_of_get?_ofList hv
  exact Value.writable_toJson _ (Value.all_integer.mpr trivial)

theorem fileBindings_of_page {n : Int64} {names : List String}
    (hdepth : (page n).toJson.depth ≤ 127)
    (htext : t.readText (pathAlong dir names) = .ok (page n).toJson.compact) :
    fileBindings t dir names = .ok (page n) := by
  have hread := Bindings.faithful_toJson.read_text (a := page n) (writable_page n)
    (Json.parse?_compact (writable_page n))
  rw [if_pos hdepth] at hread
  unfold fileBindings
  rw [htext]
  dsimp only
  rw [hread]

theorem distinct_shelves : shelves.Distinct := by
  unfold FileTree.Distinct
  decide

theorem filesBelow_shelves :
    shelves.filesBelow "core" = .ok [["a", "z.json"], ["a.json"]] := by decide +kernel

theorem fileBindings_shelves :
    fileBindings shelves "core" ["a", "z.json"] = .ok (page 1) ∧
      fileBindings shelves "core" ["a.json"] = .ok (page 2) :=
  ⟨fileBindings_of_page (by decide) (by decide +kernel),
    fileBindings_of_page (by decide) (by decide +kernel)⟩

/-- Listed from the end, the tree still has the file at the top win. -/
theorem library_of_any_listing_shelves :
    let u : FileTree := { shelves with entries := shelves.entries.reverse }
    shelves.Distinct ∧ shelves.lookup? "core" = some .directory ∧
      shelves.filesBelow "core" = .ok [["a", "z.json"], ["a.json"]] ∧
      ∃ i, ((openInterpreter { coreDir := some "core" } 0 0 : StateM FileTree _).run u).1 = .ok i ∧
        i.store.core.get? "x" = some (.integer 2) := by
  intro u
  have hdir : shelves.lookup? "core" = some .directory := by decide +kernel
  refine ⟨distinct_shelves, hdir, filesBelow_shelves, ?_⟩
  obtain ⟨result, hresult, hlistings⟩ := library_of_any_listing distinct_shelves hdir
    filesBelow_shelves
  obtain ⟨-, hopen⟩ := hlistings u ⟨rfl, shelves.entries.reverse_perm⟩
  have hfiles : ∀ names, names ∈ [["a", "z.json"], ["a.json"]] ∧ isLibraryFile names = true →
      names = ["a", "z.json"] ∨ names = ["a.json"] := by
    rintro names ⟨hnames, -⟩
    simpa using hnames
  obtain ⟨hinner, htop⟩ := fileBindings_shelves
  cases hresult with
  | failed least why =>
    obtain ⟨hnames, -⟩ := least.1
    rcases hfiles _ hnames with rfl | rfl
    · cases why.symm.trans hinner
    · cases why.symm.trans htop
  | merged decoded bound =>
    refine ⟨_, (hopen _ 0 0 _ rfl).mpr ⟨{}, {}, _, rfl, .unsaved, rfl, rfl⟩, ?_⟩
    have hbinds : (page 2).get? "x" = some (.integer 2) := rfl
    have hbinder : ["a.json"] ∈ binders (fileBindings shelves "core")
        {names | names ∈ [["a", "z.json"], ["a.json"]] ∧ isLibraryFile names = true} "x" :=
      ⟨⟨by simp, by decide +kernel⟩, page 2, htop, by simp [hbinds]⟩
    refine (bound "x" (.integer 2)).mpr ⟨["a.json"], page 2, ⟨hbinder, ?_⟩, htop, hbinds⟩
    rintro names ⟨hnames, -⟩
    rcases hfiles _ hnames with rfl | rfl
    · decide +kernel
    · exact le_refl _

end Command

end DiceScript

import DiceScript.Proofs.Files.Paths
import DiceScript.Proofs.Persistence.Replacing

/-!
# How a tree changes

Files come and go, but no operation takes a directory away. So a path leads where it led before as
long as it leads anywhere, and making directories a second time changes nothing.

- `Leads` — the front of a path leads to a directory.
- `exists_leads_of_file` — a path that leads to no directory ends in a name.
- `WellNamed` — a tree whose names are names.
- `Grows` — one tree became another, and some places are as they were.
-/

open DiceScript.Files.Path (IsName Splits)

namespace DiceScript.Files.FileTree

variable {t u v : FileTree} {p q : Place} {path : String} {front last : List Char}

/-! ## Where paths lead -/

theorem follow?_append (t : FileTree) (p : Place) (before after : List String) :
    t.follow? p (before ++ after) = (t.follow? p before).bind fun q => t.follow? q after := by
  induction before generalizing p with
  | nil => rfl
  | cons part before ih =>
    simp only [List.cons_append, follow?, ih]
    split_ifs <;> rfl

/-- A step along a path starts in a directory, and stays there, goes up or goes down. -/
theorem follow?_cons_cases {part : String} {rest : List String}
    (h : t.follow? p (part :: rest) = some q) :
    t.isDirectoryAt p = true ∧ ∃ r,
      ((part = "" ∨ part = ".") ∧ r = p ∨ part = ".." ∧ r = p.dropLast ∨
        ¬ (part = "" ∨ part = ".") ∧ part ≠ ".." ∧ r = p ++ [part]) ∧
      t.follow? r rest = some q := by
  unfold follow? at h
  split at h
  · rename_i hdir
    refine ⟨hdir, ?_⟩
    split at h
    · rename_i hsame
      exact ⟨p, .inl ⟨hsame, rfl⟩, h⟩
    rename_i hsame
    split at h
    · rename_i hup
      exact ⟨p.dropLast, .inr (.inl ⟨hup, rfl⟩), h⟩
    rename_i hup
    split at h
    · exact ⟨p ++ [part], .inr (.inr ⟨hsame, hup, rfl⟩), h⟩
    · cases h
  · cases h

def origin (t : FileTree) (front : List Char) : Place :=
  if front.head? == some '/' then [] else t.here

theorem start_eq (h : Splits path front last) : t.start path = t.origin front := by
  rw [start, origin, h.isAbsolute_eq]

structure Leads (t : FileTree) (front : List Char) (p : Place) : Prop where
  follow : t.follow? (t.origin front) (Path.frontParts front) = some p
  directory : t.isDirectoryAt p = true

theorem Leads.unique (h : t.Leads front p) (h' : t.Leads front q) : p = q :=
  Option.some.inj (h.follow.symm.trans h'.follow)

theorem leads_of_locate? (h : Splits path front last) (hq : t.locate? path = some q) :
    ∃ p, t.Leads front p ∧ t.follow? p [String.ofList last] = some q := by
  unfold locate? at hq
  split at hq
  · rw [start_eq h, h.parts_eq, follow?_append] at hq
    obtain ⟨p, hp, hq⟩ := Option.bind_eq_some_iff.mp hq
    exact ⟨p, ⟨hp, (follow?_cons_cases hq).1⟩, hq⟩
  · cases hq

theorem eq_of_follow?_name (hlast : IsName last) (hq : t.follow? p [String.ofList last] = some q) :
    q = p ++ [String.ofList last] := by
  obtain ⟨-, r, hr, hq⟩ := follow?_cons_cases hq
  obtain rfl := Option.some.inj hq
  rcases hr with ⟨hsame, -⟩ | ⟨hup, -⟩ | ⟨-, -, hname⟩
  · exact absurd hsame hlast.ofList_ne.1
  · exact absurd hup hlast.ofList_ne.2
  · exact hname

/-- What is above a place are directories. -/
def Rooted (t : FileTree) (p : Place) : Prop := ∀ r, r <+: p → r ≠ p → t.isDirectoryAt r = true

theorem rooted_here (t : FileTree) : t.Rooted t.here := by
  intro r hr _
  have habove : t.isAbove r = true := List.isPrefixOf_iff_prefix.mpr hr
  simp [isDirectoryAt, find?, habove]

theorem rooted_root (t : FileTree) : t.Rooted [] := by
  intro r hr hne
  exact absurd (List.prefix_nil.mp hr) hne

theorem rooted_origin (t : FileTree) (front : List Char) : t.Rooted (t.origin front) := by
  unfold origin
  split
  · exact t.rooted_root
  · exact t.rooted_here

theorem Rooted.dropLast (h : t.Rooted p) (hdir : t.isDirectoryAt p = true) :
    t.isDirectoryAt p.dropLast = true := by
  by_cases hp : p.dropLast = p
  · rw [hp, hdir]
  · exact h _ (List.dropLast_prefix p) hp

theorem Rooted.follow? (h : t.Rooted p) {parts : List String} (hq : t.follow? p parts = some q) :
    t.Rooted q := by
  induction parts generalizing p with
  | nil =>
    obtain rfl := Option.some.inj hq
    exact h
  | cons part parts ih =>
    obtain ⟨hdir, r, hr, hq⟩ := follow?_cons_cases hq
    refine ih ?_ hq
    rcases hr with ⟨-, rfl⟩ | ⟨-, rfl⟩ | ⟨-, -, rfl⟩
    · exact h
    · intro s hs hne
      refine h s (hs.trans (List.dropLast_prefix p)) ?_
      rintro rfl
      exact hne (hs.eq_of_length_le (List.dropLast_prefix s).length_le)
    · intro s hs hne
      rcases List.prefix_concat_iff.mp hs with rfl | hs
      · exact absurd rfl hne
      · by_cases hp : s = p
        · rw [hp, hdir]
        · exact h s hs hp

/-- A path that leads to no directory ends in a name, and its front leads to the directory that the
place lies in. -/
theorem exists_leads_of_file (h : Splits path front last) (hq : t.locate? path = some q)
    (hfile : t.isDirectoryAt q = false) :
    ∃ p, t.Leads front p ∧ IsName last ∧ q = p ++ [String.ofList last] := by
  obtain ⟨p, hp, hlast⟩ := leads_of_locate? h hq
  have hrooted : t.Rooted p := (t.rooted_origin front).follow? hp.follow
  -- The other ways to end a path lead to directories.
  have hname : IsName last := by
    refine ⟨h.last, ?_, ?_, ?_⟩
    · rintro rfl
      obtain rfl : p = q := by simpa [follow?, hp.directory] using hlast
      simp [hp.directory] at hfile
    · rintro rfl
      obtain rfl : p = q := by simpa [follow?, hp.directory] using hlast
      simp [hp.directory] at hfile
    · rintro rfl
      obtain rfl : p.dropLast = q := by simpa [follow?, hp.directory] using hlast
      simp [hrooted.dropLast hp.directory] at hfile
  exact ⟨p, hp, hname, eq_of_follow?_name hname hlast⟩

/-! ## Names -/

structure WellNamed (t : FileTree) : Prop where
  here : ∀ name ∈ t.here, IsName name.toList
  entries : ∀ p e, (p, e) ∈ t.entries → ∀ name ∈ p, IsName name.toList

namespace WellNamed

theorem insert (h : t.WellNamed) (hp : ∀ name ∈ p, IsName name.toList) (e : Entry) :
    (t.insert p e).WellNamed := by
  refine ⟨h.here, fun q f hq => ?_⟩
  rcases List.mem_cons.mp hq with heq | hq
  · obtain ⟨rfl, -⟩ := Prod.mk.inj heq
    exact hp
  · exact h.entries q f (List.mem_of_mem_filter hq)

theorem erase (h : t.WellNamed) (p : Place) : (t.erase p).WellNamed :=
  ⟨h.here, fun q f hq => h.entries q f (List.mem_of_mem_filter hq)⟩

theorem child (hp : ∀ name ∈ p, IsName name.toList) {part : String} (hslash : '/' ∉ part.toList)
    (hsame : ¬ (part = "" ∨ part = ".")) (hup : part ≠ "..") :
    ∀ name ∈ p ++ [part], IsName name.toList := by
  intro name hname
  rcases List.mem_append.mp hname with hname | hname
  · exact hp name hname
  · obtain rfl := List.mem_singleton.mp hname
    rw [not_or] at hsame
    exact ⟨hslash, fun h => hsame.1 (String.toList_injective h),
      fun h => hsame.2 (String.toList_injective h), fun h => hup (String.toList_injective h)⟩

theorem follow? (hp : ∀ name ∈ p, IsName name.toList) {parts : List String}
    (hparts : ∀ part ∈ parts, '/' ∉ part.toList) (hq : t.follow? p parts = some q) :
    ∀ name ∈ q, IsName name.toList := by
  induction parts generalizing p with
  | nil =>
    obtain rfl := Option.some.inj hq
    exact hp
  | cons part parts ih =>
    obtain ⟨hslash, hparts⟩ := List.forall_mem_cons.mp hparts
    obtain ⟨-, r, hr, hq⟩ := follow?_cons_cases hq
    refine ih ?_ hparts hq
    rcases hr with ⟨-, rfl⟩ | ⟨-, rfl⟩ | ⟨hsame, hup, rfl⟩
    · exact hp
    · exact fun name hname => hp name (List.mem_of_mem_dropLast hname)
    · exact child hp hslash hsame hup

theorem start (h : t.WellNamed) (path : String) : ∀ name ∈ t.start path, IsName name.toList := by
  unfold FileTree.start
  split
  · simp
  · exact h.here

end WellNamed

theorem notMem_of_mem_parts {part : String} (h : part ∈ Path.parts path) : '/' ∉ part.toList := by
  obtain ⟨cs, hcs, rfl⟩ := List.mem_map.mp h
  rw [String.toList_ofList]
  exact Path.notMem_of_mem_splitSlashes hcs

theorem WellNamed.locate? (h : t.WellNamed) (hq : t.locate? path = some q) :
    ∀ name ∈ q, IsName name.toList := by
  unfold FileTree.locate? at hq
  split at hq
  · exact WellNamed.follow? (h.start path) (fun part hpart => notMem_of_mem_parts hpart) hq
  · cases hq

/-! ## Writing and moving -/

section Moving

variable {c : Content} {target : String}

theorem write_eq (hp : t.locate? path = some p) (hdir : t.isDirectoryAt p = false) :
    t.write path c = .ok (t.insert p (.file c)) := by
  simp [write, hp, hdir]

theorem rename_eq (hp : t.locate? path = some p) (hq : t.locate? target = some q)
    (hc : t.find? p = some (.file c)) (hdir : t.isDirectoryAt q = false) :
    t.rename path target = .ok ((t.erase p).insert q (.file c)) := by
  simp [rename, hp, hq, hc, hdir]

theorem sameDirectories_write (h : t.write path c = .ok u) : SameDirectories t u := by
  obtain ⟨p, -, hdir, rfl⟩ := write_cases h
  exact sameDirectories_insert hdir

theorem sameDirectories_rename (h : t.rename path target = .ok u) :
    SameDirectories t u := by
  obtain ⟨p, q, c, -, -, hc, hdir, rfl⟩ := rename_cases h
  have herase : SameDirectories t (t.erase p) :=
    sameDirectories_erase (by simp [isDirectoryAt, hc])
  have hinsert : SameDirectories (t.erase p) ((t.erase p).insert q (.file c)) :=
    sameDirectories_insert (by rw [herase.directories, hdir])
  exact herase.trans hinsert

end Moving

/-! ## Changes -/

/-- A path whose file, if it can have one, is at none of the fixed places. -/
def Clear (t : FileTree) (fixed : Place → Prop) (path : String) : Prop :=
  ∀ p, t.locate? path = some p → t.isDirectoryAt p = false → ¬ fixed p

/-- One tree became another without losing a directory, and some places are as they were. -/
structure Grows (fixed : Place → Prop) (t u : FileTree) : Prop where
  here : u.here = t.here
  directories : ∀ p, t.isDirectoryAt p = true → u.isDirectoryAt p = true
  fixed : ∀ p, fixed p → u.find? p = t.find? p
  named : t.WellNamed → u.WellNamed

namespace Grows

variable {fixed : Place → Prop} {c : Content}

theorem refl (fixed : Place → Prop) (t : FileTree) : Grows fixed t t :=
  ⟨rfl, fun _ h => h, fun _ _ => rfl, fun h => h⟩

theorem trans (h : Grows fixed t u) (h' : Grows fixed u v) : Grows fixed t v where
  here := h'.here.trans h.here
  directories p hp := h'.directories p (h.directories p hp)
  fixed p hp := (h'.fixed p hp).trans (h.fixed p hp)
  named hp := h'.named (h.named hp)

theorem weaken {fixed' : Place → Prop} (h : Grows fixed t u) (hweak : ∀ p, fixed' p → fixed p) :
    Grows fixed' t u :=
  ⟨h.here, h.directories, fun p hp => h.fixed p (hweak p hp), h.named⟩

/-! ### Paths lead where they led -/

theorem follow? (h : Grows fixed t u) {parts : List String} (hq : t.follow? p parts = some q) :
    u.follow? p parts = some q := by
  induction parts generalizing p with
  | nil => exact hq
  | cons part parts ih =>
    unfold FileTree.follow? at hq ⊢
    split at hq
    · rename_i hdir
      rw [if_pos (h.directories p hdir)]
      split_ifs at hq ⊢ <;> exact ih hq
    · cases hq

theorem locate? (h : Grows fixed t u) (hq : t.locate? path = some q) : u.locate? path = some q := by
  unfold FileTree.locate? start at hq ⊢
  rw [h.here]
  split_ifs at hq ⊢ <;> exact h.follow? hq

theorem leads (h : Grows fixed t u) (hp : t.Leads front p) : u.Leads front p := by
  refine ⟨?_, h.directories p hp.directory⟩
  rw [origin, h.here]
  exact h.follow? hp.follow

/-! ### Entries -/

/-- A change at one place that is neither a directory nor fixed. -/
theorem of_elsewhere (hhere : u.here = t.here) (hfind : ∀ q, q ≠ p → u.find? q = t.find? q)
    (hdir : t.isDirectoryAt p = false) (hp : ¬ fixed p) (hnamed : t.WellNamed → u.WellNamed) :
    Grows fixed t u := by
  refine ⟨hhere, ?_, ?_, hnamed⟩
  · intro q hq
    rw [isDirectoryAt, hfind q]
    · exact hq
    · rintro rfl
      simp [hdir] at hq
  · intro q hq
    apply hfind
    rintro rfl
    exact hp hq

theorem insert (hdir : t.isDirectoryAt p = false) (hp : ¬ fixed p)
    (hnamed : t.WellNamed → ∀ name ∈ p, IsName name.toList) (e : Entry) :
    Grows fixed t (t.insert p e) := by
  refine of_elsewhere rfl (fun q hq => ?_) hdir hp fun h => h.insert (hnamed h) e
  rw [t.find?_insert p e q (isAbove_of_isDirectoryAt hdir), if_neg hq]

theorem erase (hdir : t.isDirectoryAt p = false) (hp : ¬ fixed p) : Grows fixed t (t.erase p) := by
  refine of_elsewhere rfl (fun q hq => ?_) hdir hp fun h => h.erase p
  rw [t.find?_erase p q (isAbove_of_isDirectoryAt hdir), if_neg hq]

/-! ### Operations -/

theorem write (h : t.write path c = .ok u) (hpath : t.Clear fixed path) : Grows fixed t u := by
  obtain ⟨p, hp, hdir, rfl⟩ := write_cases h
  exact insert hdir (hpath p hp hdir) (fun hnamed => hnamed.locate? hp) _

theorem rename {target : String} (h : t.rename path target = .ok u) (hpath : t.Clear fixed path)
    (htarget : t.Clear fixed target) : Grows fixed t u := by
  obtain ⟨p, q, c, hp, hq, hc, hqdir, rfl⟩ := rename_cases h
  have hpdir : t.isDirectoryAt p = false := by simp [isDirectoryAt, hc]
  have hsame := sameDirectories_erase hpdir
  have herase : Grows fixed t (t.erase p) := erase hpdir (hpath p hp hpdir)
  have hq' : (t.erase p).locate? target = some q := (hsame.locate? target).trans hq
  have hqdir' : (t.erase p).isDirectoryAt q = false := (hsame.directories q).trans hqdir
  exact herase.trans (insert hqdir' (htarget q hq hqdir) (fun hnamed => hnamed.locate? hq') _)

theorem remove (h : t.remove path = .ok u) (hpath : t.Clear fixed path) : Grows fixed t u := by
  unfold FileTree.remove at h
  split at h
  · cases h
  · rename_i p hp
    split at h
    · rename_i c hc
      obtain rfl := Except.ok.inj h
      have hdir : t.isDirectoryAt p = false := by simp [isDirectoryAt, hc]
      exact erase hdir (hpath p hp hdir)
    · cases h
    · cases h

end Grows

/-! ## Making directories -/

section Making

variable {parts : List String}

theorem find?_eq_directory (h : t.isDirectoryAt p = true) : t.find? p = some .directory :=
  beq_iff_eq.mp h

/-- Directories are made only where nothing is. -/
theorem grows_makeFrom (hp : t.WellNamed → ∀ name ∈ p, IsName name.toList)
    (hparts : ∀ part ∈ parts, '/' ∉ part.toList) :
    Grows (fun q => t.find? q ≠ none) t (t.makeFrom p parts).2 := by
  induction parts generalizing t p with
  | nil => exact .refl _ t
  | cons part parts ih =>
    obtain ⟨hslash, hparts⟩ := List.forall_mem_cons.mp hparts
    unfold makeFrom
    split
    · exact ih hp hparts
    rename_i hsame
    split
    · exact ih (fun hnamed name hname => hp hnamed name (List.mem_of_mem_dropLast hname)) hparts
    rename_i hup
    split
    · have hchild : t.WellNamed → ∀ name ∈ p ++ [part], IsName name.toList :=
        fun hnamed => WellNamed.child (hp hnamed) hslash hsame hup
      split
      · exact ih hchild hparts
      · exact .refl _ t
      · rename_i hnone
        have hdir : t.isDirectoryAt (p ++ [part]) = false := by simp [isDirectoryAt, hnone]
        have hstep : Grows (fun q => t.find? q ≠ none) t (t.insert (p ++ [part]) .directory) :=
          .insert hdir (by simp [hnone]) hchild .directory
        have hmade : (t.insert (p ++ [part]) .directory).WellNamed →
            ∀ name ∈ p ++ [part], IsName name.toList :=
          fun hnamed => hnamed.entries _ _ List.mem_cons_self
        refine hstep.trans ((ih hmade hparts).weaken fun q hq => ?_)
        rw [hstep.fixed q hq]
        exact hq
    · exact .refl _ t

/-- Directories that were made are there and are not made again. -/
theorem makeFrom_settled {fixed : Place → Prop}
    (hp : t.WellNamed → ∀ name ∈ p, IsName name.toList) (hparts : ∀ part ∈ parts, '/' ∉ part.toList)
    (h : t.makeFrom p parts = (.ok (), u)) (hgrows : Grows fixed u v) :
    v.makeFrom p parts = (.ok (), v) := by
  induction parts generalizing t p with
  | nil => rfl
  | cons part parts ih =>
    obtain ⟨hslash, hrest⟩ := List.forall_mem_cons.mp hparts
    unfold makeFrom at h ⊢
    split at h
    · rename_i hsame
      rw [if_pos hsame]
      exact ih hp hrest h
    rename_i hsame
    rw [if_neg hsame]
    split at h
    · rename_i hup
      rw [if_pos hup]
      exact ih (fun hnamed name hname => hp hnamed name (List.mem_of_mem_dropLast hname)) hrest h
    rename_i hup
    rw [if_neg hup]
    split at h
    · rename_i hsize
      rw [if_pos hsize]
      -- Whether the directory was there or had to be made, it is there from then on.
      have hnext : ∀ w : FileTree, (w.WellNamed → ∀ name ∈ p ++ [part], IsName name.toList) →
          w.isDirectoryAt (p ++ [part]) = true → w.makeFrom (p ++ [part]) parts = (.ok (), u) →
          v.isDirectoryAt (p ++ [part]) = true ∧ v.makeFrom (p ++ [part]) parts = (.ok (), v) := by
        intro w hnames hdir hmake
        have hu := (grows_makeFrom hnames hrest).directories _ hdir
        rw [hmake] at hu
        exact ⟨hgrows.directories _ hu, ih hnames hrest hmake⟩
      have hthere : v.isDirectoryAt (p ++ [part]) = true ∧
          v.makeFrom (p ++ [part]) parts = (.ok (), v) := by
        split at h
        · rename_i hfound
          exact hnext t (fun hnamed => WellNamed.child (hp hnamed) hslash hsame hup)
            (by simp [isDirectoryAt, hfound]) h
        · cases h
        · rename_i hnone
          have hdir : t.isDirectoryAt (p ++ [part]) = false := by simp [isDirectoryAt, hnone]
          refine hnext _ (fun hnamed => hnamed.entries _ _ List.mem_cons_self) ?_ h
          rw [isDirectoryAt, find?_insert _ _ _ _ (isAbove_of_isDirectoryAt hdir), if_pos rfl]
          rfl
      rw [find?_eq_directory hthere.1]
      exact hthere.2
    · cases h

theorem isDirectoryAt_of_follow? (h : t.follow? p parts = some q) (hq : t.isDirectoryAt q = true) :
    t.isDirectoryAt p = true := by
  cases parts with
  | nil =>
    obtain rfl := Option.some.inj h
    exact hq
  | cons part parts => exact (follow?_cons_cases h).1

/-- Parts that lead to a directory are passed over. -/
theorem makeFrom_append (h : t.follow? p parts = some q) (hq : t.isDirectoryAt q = true)
    (rest : List String) : t.makeFrom p (parts ++ rest) = t.makeFrom q rest := by
  induction parts generalizing p with
  | nil =>
    obtain rfl := Option.some.inj h
    rfl
  | cons part parts ih =>
    unfold follow? at h
    rw [List.cons_append, makeFrom]
    split at h
    · split at h
      · rename_i hsame
        rw [if_pos hsame, ih h]
      rename_i hsame
      rw [if_neg hsame]
      split at h
      · rename_i hup
        rw [if_pos hup, ih h]
      rename_i hup
      rw [if_neg hup]
      split at h
      · rename_i hsize
        rw [if_pos hsize, find?_eq_directory (isDirectoryAt_of_follow? h hq)]
        exact ih h
      · cases h
    · cases h

theorem makeDirectories_settled {fixed : Place → Prop} (h : t.makeDirectories path = (.ok (), u))
    (hhere : t.here = u.here) (hgrows : Grows fixed u v) : v.makeDirectories path = (.ok (), v) := by
  unfold makeDirectories start at h ⊢
  rw [hgrows.here, ← hhere]
  split_ifs at h ⊢
  · rfl
  · exact makeFrom_settled (p := []) (by simp) (fun part hpart => notMem_of_mem_parts hpart) h hgrows
  · exact makeFrom_settled (p := t.here) (fun hnamed => hnamed.here)
      (fun part hpart => notMem_of_mem_parts hpart) h hgrows
  · cases h

theorem grows_makeDirectories (t : FileTree) (path : String) :
    Grows (fun q => t.find? q ≠ none) t (t.makeDirectories path).2 := by
  unfold makeDirectories
  split_ifs
  · exact .refl _ t
  · exact grows_makeFrom (fun hnamed => hnamed.start path) fun part hpart => notMem_of_mem_parts hpart
  · exact .refl _ t

/-- Where the front of a path leads to a directory, at most the directory that the path names is
made. -/
theorem makeDirectories_cases (h : Splits path front last) (hlast : IsName last)
    (hp : t.Leads front p) :
    (t.makeDirectories path).2 = t ∨
      t.find? (p ++ [String.ofList last]) = none ∧
        (t.makeDirectories path).2 = t.insert (p ++ [String.ofList last]) .directory := by
  unfold makeDirectories
  split_ifs
  · exact .inl rfl
  · rw [start_eq h, h.parts_eq, makeFrom_append hp.follow hp.directory]
    rw [makeFrom, if_neg hlast.ofList_ne.1, if_neg hlast.ofList_ne.2]
    split
    · split
      · exact .inl rfl
      · exact .inl rfl
      · rename_i hnone
        exact .inr ⟨hnone, rfl⟩
    · exact .inl rfl
  · exact .inl rfl

end Making

/-! ## Inside a directory -/

theorem mem_of_nameIn? {dir : Place} {name : String} (h : nameIn? dir p = some name) : name ∈ p := by
  unfold nameIn? at h
  split at h
  · rename_i other hdrop
    split at h
    · obtain rfl := Option.some.inj h
      exact List.mem_of_mem_drop (hdrop ▸ List.mem_singleton_self _)
    · cases h
  · cases h

/-- Names that are listed stand in the tree. -/
theorem exists_entry_of_mem_list {names : List String} {name : String}
    (h : t.list path = .ok names) (hname : name ∈ names) :
    ∃ p e, (p, e) ∈ t.entries ∧ name ∈ p := by
  unfold list at h
  split at h
  · rename_i dir hdir
    split at h
    · obtain rfl := Except.ok.inj h
      obtain ⟨⟨p, e⟩, hentry, hin⟩ := List.mem_filterMap.mp hname
      exact ⟨p, e, hentry, mem_of_nameIn? hin⟩
    · cases h
  · cases h

/-- A path in a directory next to other paths leads, if to a file, one step further than they do. -/
theorem clear_inside {base : String} {front last name : List Char} (hbase : Splits base front last)
    (hlast : IsName last) (hp : t.Leads front p) (hpath : Splits path (base.toList ++ ['/']) name) :
    t.Clear (fun r => r.length ≤ p.length + 1) path := by
  intro r hr hfile
  obtain ⟨inner, hinner, -, rfl⟩ := exists_leads_of_file hpath hr hfile
  have horigin : t.origin (base.toList ++ ['/']) = t.origin front := by
    have hhead : (base.toList ++ ['/']).head? = base.toList.head? :=
      List.head?_append_of_ne_nil _ (by simp [hbase.text, hlast.nonempty])
    rw [origin, origin, hhead, ← hbase.isAbsolute_eq, Path.isAbsolute]
  have hfollow := hinner.follow
  rw [horigin, Path.frontParts_slash] at hfollow
  have hparts := hbase.parts_eq
  rw [Path.parts] at hparts
  rw [hparts, follow?_append, hp.follow] at hfollow
  obtain rfl := eq_of_follow?_name hlast hfollow
  simp

end DiceScript.Files.FileTree

import DiceScript.Files.Path
import Mathlib.Data.List.TakeWhile
import Mathlib.Tactic

/-!
# The front of a path

A path is its front, up to the last slash, and what comes after it. Paths with one front lie next to
each other, and another extension changes no front. Most operations on the text of a path look at it
from the end and pass over what does not tell a name; when a path does end in a name they all agree on
where the front ends.

- `IsName` — what can be the name of a file.
- `Splits` — a path, its front and the rest.
- `Splits.withExtension`, `Splits.join` — the fronts of the paths that are made from a path.
- `withExtension_ne` — an extension with a dot in it always makes another path.
-/

namespace DiceScript.Files.Path

/-! ## Parts -/

theorem splitSlashes_ne_nil (cs : List Char) : splitSlashes cs ≠ [] := by
  cases cs with
  | nil => simp [splitSlashes]
  | cons c rest =>
    unfold splitSlashes
    split
    · simp
    · split <;> simp

theorem splitSlashes_append_slash (above rest : List Char) :
    splitSlashes (above ++ '/' :: rest) = splitSlashes above ++ splitSlashes rest := by
  induction above with
  | nil => simp [splitSlashes]
  | cons c above ih =>
    by_cases hc : c = '/'
    · simp [splitSlashes, hc, ih]
    · obtain ⟨part, parts, hparts⟩ := List.exists_cons_of_ne_nil (splitSlashes_ne_nil above)
      simp [splitSlashes, hc, ih, hparts]

theorem splitSlashes_of_notMem {name : List Char} (h : '/' ∉ name) : splitSlashes name = [name] := by
  induction name with
  | nil => rfl
  | cons c rest ih =>
    rw [List.mem_cons, not_or] at h
    simp [splitSlashes, Ne.symm h.1, ih h.2]

theorem notMem_of_mem_splitSlashes {cs part : List Char} (h : part ∈ splitSlashes cs) :
    '/' ∉ part := by
  induction cs generalizing part with
  | nil => simp_all [splitSlashes]
  | cons c rest ih =>
    obtain ⟨first, parts, hparts⟩ := List.exists_cons_of_ne_nil (splitSlashes_ne_nil rest)
    rw [hparts] at ih
    by_cases hc : c = '/'
    · rw [splitSlashes, if_pos hc, hparts] at h
      rcases List.mem_cons.mp h with rfl | h
      · exact List.not_mem_nil
      · exact ih h
    · simp only [splitSlashes, if_neg hc, hparts] at h
      rcases List.mem_cons.mp h with rfl | h
      · rw [List.mem_cons, not_or]
        exact ⟨Ne.symm hc, ih List.mem_cons_self⟩
      · exact ih (List.mem_cons_of_mem _ h)

/-! ## Names -/

structure IsName (name : List Char) : Prop where
  slash : '/' ∉ name
  nonempty : name ≠ []
  same : name ≠ ['.']
  up : name ≠ ['.', '.']

theorem IsName.append {stem rest : List Char} (hstem : '/' ∉ stem) (hrest : '/' ∉ rest)
    (hlength : 2 < rest.length) : IsName (stem ++ rest) := by
  have hlong : 2 < (stem ++ rest).length := by
    rw [List.length_append]
    omega
  refine ⟨by simp [hstem, hrest], ?_, ?_, ?_⟩ <;>
  · rintro heq
    rw [heq] at hlong
    simp at hlong

/-- A name is neither of the parts that lead to no place of their own. -/
theorem IsName.ofList_ne {name : List Char} (h : IsName name) :
    ¬ (String.ofList name = "" ∨ String.ofList name = ".") ∧ String.ofList name ≠ ".." := by
  refine ⟨?_, fun hup => h.up (String.ofList_injective hup)⟩
  rintro (hempty | hsame)
  · exact h.nonempty (String.ofList_injective hempty)
  · exact h.same (String.ofList_injective hsame)

theorem trimReversed_append {cs : List Char} (hslash : '/' ∉ cs) (hne : cs ≠ []) (hsame : cs ≠ ['.'])
    (rest : List Char) : trimReversed (cs ++ rest) = cs ++ rest := by
  unfold trimReversed
  split
  · rename_i heq
    cases cs with
    | nil => exact absurd rfl hne
    | cons c cs =>
      obtain rfl : c = '/' := (List.cons.inj heq).1
      exact absurd List.mem_cons_self hslash
  · rename_i heq
    rcases cs with _ | ⟨c, _ | ⟨d, cs⟩⟩
    · exact absurd rfl hne
    · obtain rfl : c = '.' := (List.cons.inj heq).1
      exact absurd rfl hsame
    · obtain rfl : d = '/' := (List.cons.inj (List.cons.inj heq).2).1
      exact absurd (by simp) hslash
  · rfl

theorem IsName.trimReversed {name : List Char} (h : IsName name) (rest : List Char) :
    trimReversed (name.reverse ++ rest) = name.reverse ++ rest := by
  refine trimReversed_append (by simpa using h.slash) (by simpa using h.nonempty) ?_ rest
  intro heq
  exact h.same (List.reverse_injective heq)

/-! ## Fronts -/

/-- A path is a front, which is empty or ends in a slash, and what comes after the last slash. -/
structure Splits (path : String) (front last : List Char) : Prop where
  text : path.toList = front ++ last
  front : front = [] ∨ ∃ above, front = above ++ ['/']
  last : '/' ∉ last

def frontParts (front : List Char) : List String := (splitSlashes front).dropLast.map String.ofList

theorem frontParts_slash (above : List Char) :
    frontParts (above ++ ['/']) = (splitSlashes above).map String.ofList := by
  rw [frontParts, splitSlashes_append_slash]
  simp [splitSlashes]

theorem exists_splits (path : String) : ∃ front last, Splits path front last := by
  have hwhole := List.takeWhile_append_dropWhile (p := (· != '/')) (l := path.toList.reverse)
  generalize hlast : path.toList.reverse.takeWhile (· != '/') = last at hwhole
  generalize hfront : path.toList.reverse.dropWhile (· != '/') = front at hwhole
  refine ⟨front.reverse, last.reverse, ?_, ?_, ?_⟩
  · rw [← List.reverse_append, hwhole, List.reverse_reverse]
  · cases front with
    | nil => exact .inl rfl
    | cons c front =>
      have hc := List.dropWhile_get_zero_not (· != '/') path.toList.reverse (by simp [hfront])
      obtain rfl : c = '/' := by simpa [hfront] using hc
      exact .inr ⟨front.reverse, List.reverse_cons⟩
  · intro hmem
    rw [← hlast, List.mem_reverse] at hmem
    simpa using List.mem_takeWhile_imp hmem

namespace Splits

variable {path base : String} {front last : List Char}

theorem parts_eq (h : Splits path front last) :
    parts path = frontParts front ++ [String.ofList last] := by
  rw [parts, h.text]
  rcases h.front with rfl | ⟨above, rfl⟩
  · rw [List.nil_append, splitSlashes_of_notMem h.last]
    rfl
  · rw [frontParts_slash, List.append_assoc, List.singleton_append, splitSlashes_append_slash,
      splitSlashes_of_notMem h.last, List.map_append]
    rfl

theorem isAbsolute_eq (h : Splits path front last) :
    isAbsolute path = (front.head? == some '/') := by
  rw [isAbsolute, h.text]
  rcases h.front with rfl | ⟨above, rfl⟩
  · cases last with
    | nil => rfl
    | cons c last =>
      simpa using List.ne_of_not_mem_cons h.last |>.symm
  · cases above <;> rfl

theorem dropWhile_front (h : Splits path front last) :
    front.reverse.dropWhile (· != '/') = front.reverse ∧ front.reverse.takeWhile (· != '/') = [] := by
  rcases h.front with rfl | ⟨above, rfl⟩
  · exact ⟨rfl, rfl⟩
  · simp

/-- A path that ends in a name is taken apart at its front. -/
theorem splitLast_eq (h : Splits path front last) (hname : IsName last) :
    splitLast path = (front, last) := by
  have hlast : ∀ c ∈ last.reverse, (c != '/') = true := by
    intro c hc
    rw [bne_iff_ne]
    rintro rfl
    exact h.last (List.mem_reverse.mp hc)
  obtain ⟨hdrop, htake⟩ := h.dropWhile_front
  rw [splitLast, h.text, List.reverse_append, hname.trimReversed,
    List.dropWhile_append_of_pos hlast, List.takeWhile_append_of_pos hlast, hdrop, htake,
    List.append_nil, List.reverse_reverse, List.reverse_reverse]

theorem splitName?_eq (h : Splits path front last) (hname : IsName last) :
    splitName? path = some (front, last) := by
  rw [splitName?, h.splitLast_eq hname]
  dsimp only
  rw [if_neg]
  rintro (hempty | hsame | hup)
  · exact hname.nonempty hempty
  · exact hname.same hsame
  · exact hname.up hup

end Splits

/-! ## Other extensions -/

/-- A name with another extension; what is in front of it may be left without a name. -/
def extended (name extension : List Char) : List Char :=
  if (splitExtension name).1 = ['.'] then ['.', '.'] else (splitExtension name).1 ++ '.' :: extension

theorem notMem_splitExtension {name : List Char} (h : '/' ∉ name) : '/' ∉ (splitExtension name).1 := by
  unfold splitExtension
  split
  · exact h
  · intro hmem
    refine h (List.mem_reverse.mp ?_)
    exact (List.dropWhile_suffix _).subset ((List.drop_suffix _ _).subset (List.mem_reverse.mp hmem))

theorem Splits.withExtension {path extension : String} {front last : List Char}
    (h : Splits path front last) (hname : IsName last) (hext : '/' ∉ extension.toList) :
    Splits (Path.withExtension path extension) front (extended last extension.toList) := by
  have hstem := notMem_splitExtension h.last
  unfold Path.withExtension extended
  rw [h.splitName?_eq hname]
  dsimp only
  by_cases hdot : (splitExtension last).1 = ['.']
  · rw [if_pos ⟨hdot, h.text.symm⟩, if_pos hdot]
    exact ⟨String.toList_ofList, h.front, by decide⟩
  · rw [if_neg (fun hboth => hdot hboth.1), if_neg hdot]
    refine ⟨?_, h.front, ?_⟩
    · rw [String.toList_ofList, List.append_assoc]
    · simp [hstem, hext]

/-- An extension goes from the last dot of a name to its end. -/
theorem splitExtension_cases (name : List Char) :
    (splitExtension name).1 = name ∨
      ∃ extension, name = (splitExtension name).1 ++ '.' :: extension ∧ '.' ∉ extension := by
  have hwhole := List.takeWhile_append_dropWhile (p := (· != '.')) (l := name.reverse)
  unfold splitExtension
  split
  · exact .inl rfl
  · rename_i hstem
    right
    refine ⟨(name.reverse.takeWhile (· != '.')).reverse, ?_, ?_⟩
    · cases hrest : name.reverse.dropWhile (· != '.') with
      | nil =>
        rw [hrest] at hstem
        exact absurd rfl hstem
      | cons c rest =>
        have hc := List.dropWhile_get_zero_not (· != '.') name.reverse (by simp [hrest])
        obtain rfl : c = '.' := by simpa [hrest] using hc
        rw [hrest] at hwhole
        have hname := congrArg List.reverse hwhole
        simpa using hname.symm
    · intro hmem
      simpa using List.mem_takeWhile_imp (List.mem_reverse.mp hmem)

/-- What is put in place of an extension has a dot of its own, so the name is another. -/
theorem extended_ne {name extension : List Char} (hname : IsName name) (hdot : '.' ∈ extension) :
    extended name extension ≠ name := by
  intro heq
  unfold extended at heq
  split_ifs at heq
  · exact hname.up heq.symm
  · rcases splitExtension_cases name with hwhole | ⟨old, hsplit, hold⟩
    · rw [hwhole] at heq
      simpa using congrArg List.length heq
    · have hsame := List.append_cancel_left (heq.trans hsplit)
      rw [(List.cons.inj hsame).2] at hdot
      exact hold hdot

/-- What is passed over at the end of a path starts with a slash. -/
theorem trimReversed_cases (cs : List Char) :
    ∃ passed, cs = passed ++ trimReversed cs ∧ (passed = [] ∨ ∃ more, passed = more ++ ['/']) := by
  have hslash : ∀ first passed : List Char, (passed = [] ∨ ∃ more, passed = more ++ ['/']) →
      ∃ more, first ++ '/' :: passed = more ++ ['/'] := by
    rintro first passed (rfl | ⟨more, rfl⟩)
    · exact ⟨first, rfl⟩
    · exact ⟨first ++ '/' :: more, by simp⟩
  fun_induction trimReversed cs with
  | case1 rest ih =>
    obtain ⟨passed, hpassed, hend⟩ := ih
    exact ⟨'/' :: passed, congrArg (List.cons '/') hpassed, .inr (hslash [] passed hend)⟩
  | case2 rest ih =>
    obtain ⟨passed, hpassed, hend⟩ := ih
    refine ⟨'.' :: '/' :: passed, ?_, .inr (hslash ['.'] passed hend)⟩
    exact congrArg (fun cs => '.' :: '/' :: cs) hpassed
  | case3 cs => exact ⟨[], rfl, .inl rfl⟩

/-- A path that has a name is what stands before it, the name, and slashes and steps to the same
directory, if anything. -/
theorem splitName?_cases {path : String} {front name : List Char}
    (h : splitName? path = some (front, name)) :
    ∃ rest, path.toList = front ++ name ++ rest ∧ IsName name ∧ (rest = [] ∨ '/' ∈ rest) := by
  obtain ⟨passed, hpassed, hend⟩ := trimReversed_cases path.toList.reverse
  have hrest : passed.reverse = [] ∨ '/' ∈ passed.reverse := by
    rcases hend with rfl | ⟨more, rfl⟩
    · exact .inl rfl
    · exact .inr (by simp)
  unfold splitName? splitLast at h
  dsimp only at h
  generalize trimReversed path.toList.reverse = cs at h hpassed
  split_ifs at h with hnone
  obtain ⟨rfl, rfl⟩ := Prod.mk.inj (Option.some.inj h)
  rw [not_or, not_or] at hnone
  refine ⟨passed.reverse, ?_, ⟨?_, hnone.1, hnone.2.1, hnone.2.2⟩, hrest⟩
  · rw [← List.reverse_append, List.takeWhile_append_dropWhile, ← List.reverse_append, ← hpassed,
      List.reverse_reverse]
  · intro hmem
    simpa using List.mem_takeWhile_imp (List.mem_reverse.mp hmem)

/-- A path that has a name is another one with an extension that has a dot in it. -/
theorem withExtension_ne {path extension : String} {front name : List Char}
    (h : splitName? path = some (front, name)) (hdot : '.' ∈ extension.toList)
    (hslash : '/' ∉ extension.toList) : withExtension path extension ≠ path := by
  obtain ⟨rest, hpath, hname, hrest⟩ := splitName?_cases h
  intro heq
  have hchars := congrArg String.toList heq
  unfold withExtension at hchars
  rw [h] at hchars
  dsimp only at hchars
  split_ifs at hchars with hup
  · rw [String.toList_ofList, ← hup.2] at hchars
    exact hname.up (List.append_cancel_left hchars).symm
  · rw [String.toList_ofList, hpath, List.append_assoc, List.append_assoc] at hchars
    have hlast := List.append_cancel_left hchars
    -- What comes after the name has a slash in it, or there is nothing.
    obtain rfl : rest = [] := by
      refine hrest.resolve_right fun hmem => ?_
      have hmem' : '/' ∈ (splitExtension name).1 ++ '.' :: extension.toList := by
        rw [hlast]
        exact List.mem_append_right _ hmem
      simp [notMem_splitExtension hname.slash, hslash] at hmem'
    rw [List.append_nil] at hlast
    refine extended_ne hname hdot ?_
    by_cases hstem : (splitExtension name).1 = ['.']
    · exact absurd ⟨hstem, by rw [hpath, List.append_nil]⟩ hup
    · rw [extended, if_neg hstem, hlast]

/-! ## The directory of a path -/

/-- A path goes on with a slash after its directory, unless there is nothing to tell the directory
by. -/
theorem directory_cases (path : String) :
    directory path = "." ∨ directory path = "/" ∨
      ∃ above rest, above ≠ [] ∧ directory path = String.ofList above ∧
        path.toList = above ++ '/' :: rest := by
  obtain ⟨passed, hpassed, -⟩ := trimReversed_cases path.toList.reverse
  unfold directory splitLast
  dsimp only
  generalize trimReversed path.toList.reverse = cs at hpassed ⊢
  have hwhole := List.takeWhile_append_dropWhile (p := (· != '/')) (l := cs)
  split
  · exact .inl rfl
  rw [List.reverse_reverse]
  generalize cs.takeWhile (· != '/') = last at hwhole
  split
  · split_ifs
    · exact .inr (.inl rfl)
    · exact .inl rfl
  · rename_i hne
    refine .inr (.inr ?_)
    cases hfront : cs.dropWhile (· != '/') with
    | nil =>
      rw [hfront] at hne
      exact absurd rfl hne
    | cons c front =>
      -- The last part comes after a slash, and more of them may have been passed over.
      have hc := List.dropWhile_get_zero_not (· != '/') cs (by simp [hfront])
      obtain rfl : c = '/' := by simpa [hfront] using hc
      rw [hfront] at hne hwhole
      obtain ⟨skipped, hskipped, hend⟩ := trimReversed_cases front
      obtain ⟨more, hmore⟩ : ∃ more, '/' :: skipped = more ++ ['/'] := by
        rcases hend with rfl | ⟨more, rfl⟩
        · exact ⟨[], rfl⟩
        · exact ⟨'/' :: more, rfl⟩
      have htext : path.toList.reverse = passed ++ last ++ more ++ '/' :: trimReversed front := by
        calc path.toList.reverse
            = passed ++ (last ++ '/' :: front) := by rw [hpassed, hwhole]
          _ = passed ++ (last ++ ('/' :: skipped ++ trimReversed front)) := by
              rw [List.cons_append, ← hskipped]
          _ = passed ++ last ++ more ++ '/' :: trimReversed front := by rw [hmore]; simp
      refine ⟨(trimReversed front).reverse, (passed ++ last ++ more).reverse, hne, rfl, ?_⟩
      rw [← List.reverse_reverse path.toList, htext]
      simp

/-! ## Names in a directory -/

section Join

variable {base name : String} {front last : List Char}

theorem join_eq (h : Splits base front last) (hlast : IsName last) (hname : '/' ∉ name.toList) :
    (join base name).toList = base.toList ++ '/' :: name.toList := by
  have habsolute : isAbsolute name = false := by
    unfold isAbsolute
    cases hchars : name.toList with
    | nil => rfl
    | cons c rest =>
      rw [hchars] at hname
      simpa using (List.ne_of_not_mem_cons hname).symm
  have hbase : base.toList ≠ [] := by
    rw [h.text]
    simp [hlast.nonempty]
  have hempty : base.isEmpty = false := by
    rw [← Bool.not_eq_true, String.isEmpty_iff]
    rintro rfl
    exact hbase rfl
  have hend : (base.toList.getLast? == some '/') = false := by
    rw [h.text, List.getLast?_append_of_ne_nil _ hlast.nonempty, beq_eq_false_iff_ne]
    intro hslash
    exact hlast.slash (List.mem_of_getLast? hslash)
  rw [join, habsolute, hempty, hend]
  simp

/-- What lies in a directory has the path of the directory for its front. -/
theorem Splits.join (h : Splits base front last) (hlast : IsName last) (hname : '/' ∉ name.toList) :
    Splits (Path.join base name) (base.toList ++ ['/']) name.toList := by
  refine ⟨?_, .inr ⟨base.toList, rfl⟩, hname⟩
  rw [join_eq h hlast hname, List.append_assoc]
  rfl

theorem directory_join (h : Splits base front last) (hlast : IsName last)
    (hname : IsName name.toList) : directory (join base name) = base := by
  have hbase : trimReversed base.toList.reverse = base.toList.reverse := by
    rw [h.text, List.reverse_append, hlast.trimReversed]
  have htrim : (trimReversed (base.toList ++ ['/']).reverse).reverse = base.toList := by
    rw [List.reverse_append]
    show (trimReversed base.toList.reverse).reverse = _
    rw [hbase, List.reverse_reverse]
  have hne : base.toList ≠ [] := by
    rw [h.text]
    simp [hlast.nonempty]
  rw [directory, (h.join hlast hname.slash).splitLast_eq hname]
  dsimp only
  rw [if_neg hname.nonempty, htrim]
  split
  · rename_i hnil
    exact absurd hnil hne
  · exact String.ofList_toList

end Join

end DiceScript.Files.Path

import Mathlib.Data.List.TakeWhile
import SourceDoc.Text.PathName

/-!
# Paths and their last segments

A path is cut at its last dot, and so is its last segment on its own.  Both give the same extension,
whatever dots there are in directories and at the start of a name (`splitExtension_eq_fileName`).  Where
there is an extension, the last segment has something other than dots in front of it
(`fileName_of_extension`).
-/

namespace SourceDoc.Text

/-! ### Behind the last separator -/

/-- What stands in front of a separator does not count. -/
theorem afterLast_append_cons (separator : Char) (front back : List Char) :
    afterLast separator (front ++ separator :: back) = afterLast separator back := by
  have hstop : (back.reverse ++ separator :: front.reverse).takeWhile (· != separator) =
      back.reverse.takeWhile (· != separator) := by
    rw [List.takeWhile_append]
    split
    · rename_i hall
      rw [List.takeWhile_cons_of_neg (by simp), List.append_nil]
      exact ((List.takeWhile_prefix _).eq_of_length hall).symm
    · rfl
  rw [afterLast, List.reverse_append, List.reverse_cons, List.append_assoc, List.singleton_append,
    hstop]
  rfl

theorem afterLast_of_notMem {separator : Char} {text : List Char} (h : separator ∉ text) :
    afterLast separator text = text := by
  have hall : ∀ c ∈ text.reverse, (c != separator) = true := by
    intro c hc
    rw [bne_iff_ne]
    rintro rfl
    exact h (List.mem_reverse.1 hc)
  rw [afterLast, List.takeWhile_eq_self_iff.2 hall, List.reverse_reverse]

/-- A text is cut at its last separator. -/
theorem exists_eq_append_afterLast {separator : Char} {text : List Char} (h : separator ∈ text) :
    ∃ front, text = front ++ separator :: afterLast separator text ∧
      separator ∉ afterLast separator text := by
  obtain ⟨back, front, hreverse, hback⟩ := List.eq_append_cons_of_mem (List.mem_reverse.2 h)
  have htext : text = front.reverse ++ separator :: back.reverse := by
    simpa using congrArg List.reverse hreverse
  have hback : separator ∉ back.reverse := by simpa using hback
  have hafter : afterLast separator text = back.reverse := by
    rw [htext, afterLast_append_cons, afterLast_of_notMem hback]
  rw [hafter]
  exact ⟨front.reverse, htext, hback⟩

/-- The name of a file is the last of the segments of its path. -/
theorem getLast?_splitOn_eq_fileName (path : List Char) :
    (path.splitOn '/').getLast? = some (fileName path) := by
  unfold fileName
  by_cases hpath : '/' ∈ path
  · obtain ⟨front, heq, hname⟩ := exists_eq_append_afterLast hpath
    rw [heq, List.splitOn_append_cons_self, afterLast_append_cons, afterLast_of_notMem hname,
      List.splitOn_eq_singleton hname]
    simp
  · simp [List.splitOn_eq_singleton hpath, afterLast_of_notMem hpath]

/-! ### Extensions -/

theorem splitExtension_of_notMem {path : List Char} (h : '.' ∉ path) :
    splitExtension path = (path, []) := by
  simp [splitExtension, afterLast_of_notMem h]

/-- What the last dot of a path separates. -/
theorem splitExtension_append {tail : List Char} (h : '.' ∉ tail) (stem : List Char) :
    splitExtension (stem ++ '.' :: tail) =
      if '/' ∉ tail ∧ (fileName stem).any (· != '.') = true then (stem, '.' :: tail)
      else (stem ++ '.' :: tail, []) := by
  have hlength : (stem ++ '.' :: tail).length - tail.length - 1 = stem.length := by
    simp only [List.length_append, List.length_cons]
    omega
  have hlonger : tail.length < (stem ++ '.' :: tail).length := by
    simp only [List.length_append, List.length_cons]
    omega
  simp only [splitExtension, afterLast_append_cons, afterLast_of_notMem h, hlength, List.take_left,
    decide_eq_true hlonger]
  simp

/-- Nothing gets lost, and an extension has something other than dots in front of it. -/
theorem splitExtension_spec (path : List Char) :
    (splitExtension path).1 ++ (splitExtension path).2 = path ∧
      ((splitExtension path).2 ≠ [] → ∃ c ∈ (splitExtension path).1, c ≠ '.') := by
  by_cases hdot : '.' ∈ path
  · obtain ⟨stem, heq, htail⟩ := exists_eq_append_afterLast hdot
    rw [heq, splitExtension_append htail]
    split_ifs with hsplit
    · obtain ⟨c, hc, hne⟩ := List.any_eq_true.1 hsplit.2
      have hmem : c ∈ stem := by
        have hsublist := List.takeWhile_sublist (l := stem.reverse) (· != '/')
        exact List.mem_reverse.1 (hsublist.subset (List.mem_reverse.1 hc))
      exact ⟨rfl, fun _ => ⟨c, hmem, bne_iff_ne.1 hne⟩⟩
    · simp
  · simp [splitExtension_of_notMem hdot]

/-- A dot in front of a segment without dots is followed by the separator of that segment. -/
theorem slash_mem_of_append_eq {directory name stem tail : List Char} (hname : '.' ∉ name)
    (h : directory ++ '/' :: name = stem ++ '.' :: tail) : '/' ∈ tail := by
  rw [List.append_eq_append_iff] at h
  rcases h with ⟨middle, -, h⟩ | ⟨middle, -, h⟩
  · simp only [List.cons_eq_append_iff, List.cons.injEq, Char.reduceEq, false_and, and_false,
      false_or] at h
    obtain ⟨middle, -, rfl⟩ := h
    simp at hname
  · simp only [List.cons_eq_append_iff, List.cons.injEq, Char.reduceEq, false_and, and_false,
      false_or] at h
    obtain ⟨middle, -, rfl⟩ := h
    simp

/-- **A path and its last segment have the same extension.** -/
theorem splitExtension_eq_fileName (path : List Char) :
    (splitExtension path).2 = (splitExtension (fileName path)).2 := by
  by_cases hpath : '/' ∈ path
  · obtain ⟨directory, heq, hname⟩ := exists_eq_append_afterLast hpath
    rw [← fileName] at heq hname
    by_cases hdot : '.' ∈ fileName path
    · -- The last dot of the name is that of the path, and the same segment stands in front of it.
      obtain ⟨stem, hstem, htail⟩ := exists_eq_append_afterLast hdot
      generalize afterLast '.' (fileName path) = tail at hstem htail
      have hsame : fileName (directory ++ '/' :: stem) = fileName stem :=
        afterLast_append_cons '/' directory stem
      rw [hstem] at heq ⊢
      rw [heq, ← List.cons_append, ← List.append_assoc, splitExtension_append htail,
        splitExtension_append htail, hsame]
      split_ifs <;> rfl
    · rw [splitExtension_of_notMem hdot]
      by_cases hdirectory : '.' ∈ path
      · -- The last dot of the path belongs to a directory, so a separator follows it.
        obtain ⟨stem, hstem, htail⟩ := exists_eq_append_afterLast hdirectory
        generalize afterLast '.' path = tail at hstem htail
        have hslash : '/' ∈ tail := slash_mem_of_append_eq hdot (heq.symm.trans hstem)
        rw [hstem, splitExtension_append htail]
        simp [hslash]
      · rw [splitExtension_of_notMem hdirectory]
  · rw [fileName, afterLast_of_notMem hpath]

/-- The last segment of a path with an extension. -/
theorem fileName_of_extension {path : List Char} (h : (splitExtension path).2 ≠ []) :
    fileName path = (splitExtension (fileName path)).1 ++ (splitExtension path).2 ∧
      ∃ c ∈ (splitExtension (fileName path)).1, c ≠ '.' := by
  rw [splitExtension_eq_fileName] at h ⊢
  obtain ⟨hwhole, hdots⟩ := splitExtension_spec (fileName path)
  exact ⟨hwhole.symm, hdots h⟩

end SourceDoc.Text

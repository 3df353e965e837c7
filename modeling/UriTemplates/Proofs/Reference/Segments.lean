import Mathlib.Data.List.TakeDrop
import UriTemplates.Proofs.Text.Fields
import UriTemplates.Reference.Resolution

/-!
# Paths by segments

A path is resolved against a base by putting its segments after those of the base's directory,
where every `..` takes one of these back (`Reference.resolvedPath_eq`). A path is made relative by
leaving out the segments that it shares with the directory and writing `..` for every other segment
of the directory (`Reference.fields_relativePath`). For plain segments (`Reference.arePlain`) each
of the two undoes the other: `Reference.relativePath_resolvedPath` and
`Reference.resolvedPath_relativePath`.
-/

namespace UriTemplates.Reference

/-- Whether segments are resolved as they are: none is `.` or `..`, and at most the last one is
empty. -/
def arePlain (segments : List Text) : Bool :=
  segments.dropLast.all (!·.isEmpty) && segments.all (!isDots ·)

/-- Whether a path is absolute and has plain segments after its first slash. -/
def isPlainPath : Text → Bool
  | '/' :: path => arePlain (Text.fields '/' path)
  | _ => false

/-- The segments of the directory of a path, with the empty one before the first slash. -/
def directorySegments (path : Text) : List Text :=
  let segments := (Text.fields '/' path).dropLast
  if segments.isEmpty then [[]] else segments

/-- The directory of a path, with the slash at its end. -/
def directoryPath (path : Text) : Text :=
  Text.joined '/' (directorySegments path ++ [[]])

/-- Segments are plain if none but the last is empty and none is made of dots. -/
theorem arePlain_iff {segments : List Text} : arePlain segments = true ↔
    (∀ segment ∈ segments.dropLast, segment ≠ []) ∧
      ∀ segment ∈ segments, isDots segment = false := by
  simp [arePlain]

section Resolution

/-- Segments that are no dots are kept. -/
theorem withoutDots_append {segments : List Text}
    (plain : ∀ segment ∈ segments, isDots segment = false) (kept rest : List Text) :
    withoutDots kept (segments ++ rest) = withoutDots (segments.reverse ++ kept) rest := by
  induction segments generalizing kept with
  | nil => rfl
  | cons segment segments ih =>
    obtain ⟨here, later⟩ := List.forall_mem_cons.mp plain
    simp only [isDots, Bool.or_eq_false_iff, decide_eq_false_iff_not] at here
    rw [List.cons_append, withoutDots, if_neg here.2, if_neg here.1, ih later,
      List.reverse_cons, List.append_assoc, List.singleton_append]

/-- Every `..` takes back a segment that has been kept. -/
theorem withoutDots_parents (count : Nat) (kept rest : List Text) :
    withoutDots kept (List.replicate count ['.', '.'] ++ rest) =
      withoutDots (kept.drop count) rest := by
  induction count generalizing kept with
  | zero => rfl
  | succ count ih =>
    rw [List.replicate_succ, List.cons_append, withoutDots, if_pos rfl, ih, List.drop_drop,
      Nat.add_comm]

/-- What is left of a directory and a path that climbs out of a part of it. -/
theorem withoutDots_climbing {directory rest : List Text}
    (plain : ∀ segment ∈ directory, isDots segment = false)
    (plainRest : ∀ segment ∈ rest, isDots segment = false) (count : Nat) :
    withoutDots [] (directory ++ (List.replicate count ['.', '.'] ++ rest)) =
      directory.take (directory.length - count) ++ rest := by
  rw [withoutDots_append plain, withoutDots_parents, ← List.append_nil rest,
    withoutDots_append plainRest, withoutDots, List.append_nil, List.append_nil,
    List.drop_reverse, List.reverse_append, List.reverse_reverse, List.reverse_reverse]

/-- Between the first and the last segment, those that are empty are left out. -/
theorem withoutInnerEmpty_concat (first : Text) (inner : List Text) (last : Text) :
    withoutInnerEmpty (first :: inner ++ [last]) =
      first :: inner.filter (!·.isEmpty) ++ [last] := by
  simp [withoutInnerEmpty]

end Resolution

section Directory

variable {base : Text}

/-- A plain path is a slash and plain segments. -/
theorem exists_of_isPlainPath {path : Text} (plain : isPlainPath path = true) :
    ∃ rest, path = '/' :: rest ∧ arePlain (Text.fields '/' rest) = true := by
  unfold isPlainPath at plain
  split at plain
  · exact ⟨_, rfl, plain⟩
  · cases plain

theorem head?_of_isPlainPath {path : Text} (plain : isPlainPath path = true) :
    path.head? = some '/' := by
  obtain ⟨rest, rfl, -⟩ := exists_of_isPlainPath plain
  rfl

theorem ne_nil_of_isPlainPath {path : Text} (plain : isPlainPath path = true) : path ≠ [] := by
  obtain ⟨rest, rfl, -⟩ := exists_of_isPlainPath plain
  exact List.cons_ne_nil '/' rest

theorem fields_absolute (rest : Text) :
    Text.fields '/' ('/' :: rest) = [] :: Text.fields '/' rest := by
  rw [Text.fields, if_pos rfl]

/-- The last one of the segments of a path. -/
theorem exists_fields_eq_concat (path : Text) : ∃ front last,
    Text.fields '/' path = front ++ [last] :=
  ⟨_, _, (List.dropLast_append_getLast (Text.fields_ne_nil '/' path)).symm⟩

/-- Just an absolute path has an empty segment at its start with others after it. -/
theorem head?_ne_of_nonempty {path : Text}
    (nonempty : ∀ segment ∈ (Text.fields '/' path).dropLast, segment ≠ []) :
    path.head? ≠ some '/' := by
  intro first
  obtain ⟨rest, rfl⟩ := List.head?_eq_some_iff.mp first
  obtain ⟨front, last, split⟩ := exists_fields_eq_concat rest
  rw [fields_absolute, split, ← List.cons_append, List.dropLast_concat] at nonempty
  exact nonempty [] List.mem_cons_self rfl

/-- The segments of a plain path are an empty one, others that are not empty, and the last one. -/
theorem exists_inner_of_isPlainPath (plain : isPlainPath base = true) : ∃ inner last,
    Text.fields '/' base = [] :: inner ++ [last] ∧ (∀ segment ∈ inner, segment ≠ []) ∧
      ∀ segment ∈ inner ++ [last], isDots segment = false := by
  obtain ⟨rest, rfl, plainRest⟩ := exists_of_isPlainPath plain
  obtain ⟨inner, last, split⟩ := exists_fields_eq_concat rest
  rw [split, arePlain_iff, List.dropLast_concat] at plainRest
  exact ⟨inner, last, by rw [fields_absolute, split]; rfl, plainRest.1, plainRest.2⟩

/-- The directory of a base starts with an empty segment, and no other one is empty. -/
theorem exists_directorySegments (plain : base = [] ∨ isPlainPath base = true) : ∃ inner,
    directorySegments base = [] :: inner ∧ (∀ segment ∈ inner, segment ≠ []) ∧
      (∀ segment ∈ inner, isDots segment = false) ∧
      (directory base = [] :: inner ∨ directory base = [] :: (inner ++ [[]])) := by
  rcases plain with rfl | plain
  · exact ⟨[], rfl, by simp, by simp, .inl rfl⟩
  · obtain ⟨inner, last, whole, nonempty, noDots⟩ := exists_inner_of_isPlainPath plain
    refine ⟨inner, ?_, nonempty, (List.forall_mem_append.mp noDots).1, ?_⟩
    · rw [directorySegments, whole, List.dropLast_concat]
      rfl
    · simp only [directory, whole, List.getLast?_concat, List.dropLast_concat]
      by_cases ended : last = []
      · subst ended
        exact .inr (if_pos rfl)
      · exact .inl (if_neg (by simpa using ended))

/-- The directory of a plain path has no segment made of dots. -/
theorem isDots_directorySegments (plain : base = [] ∨ isPlainPath base = true) :
    ∀ segment ∈ directorySegments base, isDots segment = false := by
  obtain ⟨inner, segments, -, noDots, -⟩ := exists_directorySegments plain
  rw [segments]
  exact List.forall_mem_cons.mpr ⟨rfl, noDots⟩

/-- A segment of the directory is empty or one of the path. -/
theorem eq_nil_or_mem_fields {segment : Text} (member : segment ∈ directorySegments base) :
    segment = [] ∨ segment ∈ Text.fields '/' base := by
  simp only [directorySegments] at member
  split at member
  · exact .inl (List.mem_singleton.mp member)
  · exact .inr (List.dropLast_subset _ member)

/-- The segments of a directory do not hold a slash. -/
theorem notMem_directorySegments (base : Text) :
    ∀ segment ∈ directorySegments base, '/' ∉ segment := by
  intro segment member
  rcases eq_nil_or_mem_fields member with rfl | ofBase
  · exact List.not_mem_nil
  · exact Text.notMem_of_mem_fields segment ofBase

/-- The characters in the directory of a path are those of the path. -/
theorem mem_of_mem_directorySegments {segment : Text} {c : Char}
    (member : segment ∈ directorySegments base) (inside : c ∈ segment) : c ∈ base := by
  have other : c ≠ '/' := by
    rintro rfl
    exact notMem_directorySegments base segment member inside
  rcases eq_nil_or_mem_fields member with rfl | ofBase
  · exact (List.not_mem_nil inside).elim
  · exact (Text.mem_iff_exists_fields other).mpr ⟨segment, ofBase, inside⟩

end Directory

section Merging

variable {base path : Text}

/-- The segments of a relative path come after those of the directory. -/
theorem mergedSegments_eq (plain : base = [] ∨ isPlainPath base = true)
    (nonempty : ∀ segment ∈ (Text.fields '/' path).dropLast, segment ≠ []) :
    mergedSegments base path = directorySegments base ++ Text.fields '/' path := by
  obtain ⟨inner, segments, someInner, -, ofBase⟩ := exists_directorySegments plain
  unfold mergedSegments
  split
  · exact (head?_ne_of_nonempty nonempty rfl).elim
  · obtain ⟨front, last, split⟩ := exists_fields_eq_concat path
    rw [split, List.dropLast_concat] at nonempty
    have kept : ∀ {texts : List Text}, (∀ text ∈ texts, text ≠ []) →
        texts.filter (!·.isEmpty) = texts := by
      intro texts each
      exact List.filter_eq_self.mpr (by simpa using each)
    rw [segments, split, ← List.append_assoc]
    rcases ofBase with same | same
    · rw [same, ← List.append_assoc, List.cons_append, withoutInnerEmpty_concat,
        List.filter_append, kept someInner, kept nonempty]
    · rw [same, ← List.append_assoc, List.cons_append, withoutInnerEmpty_concat,
        List.filter_append, List.filter_append, kept someInner, kept nonempty]
      simp

/-- Climbing out of a directory does not make a relative path absolute. -/
theorem nonempty_climbing {rest : List Text} (some_ : rest ≠ [])
    (plain : ∀ segment ∈ rest.dropLast, segment ≠ []) (count : Nat) :
    ∀ segment ∈ (List.replicate count ['.', '.'] ++ rest).dropLast, segment ≠ [] := by
  rw [List.dropLast_append_of_ne_nil some_]
  intro segment member
  rcases List.mem_append.mp member with parent | later
  · simp [List.eq_of_mem_replicate parent]
  · exact plain segment later

/-- **What a relative path is resolved to**: its segments after what is left of the directory. -/
theorem resolvedPath_eq (plain : base = [] ∨ isPlainPath base = true) {count : Nat}
    {rest : List Text} (inside : count < (directorySegments base).length) (some_ : rest ≠ [])
    (plainRest : arePlain rest = true)
    (segments : Text.fields '/' path = List.replicate count ['.', '.'] ++ rest) :
    resolvedPath base path = Text.joined '/'
      ((directorySegments base).take ((directorySegments base).length - count) ++ rest) := by
  obtain ⟨nonempty, noDots⟩ := arePlain_iff.mp plainRest
  have merged : mergedSegments base path =
      directorySegments base ++ (List.replicate count ['.', '.'] ++ rest) := by
    rw [← segments]
    refine mergedSegments_eq plain ?_
    rw [segments]
    exact nonempty_climbing some_ nonempty count
  have ended : (mergedSegments base path).getLast?.any isDots = false := by
    rw [merged, ← List.append_assoc, List.getLast?_append_of_ne_nil _ some_,
      List.getLast?_eq_some_getLast some_]
    exact noDots _ (List.getLast_mem some_)
  have several : Text.joined '/' ((directorySegments base).take
      ((directorySegments base).length - count) ++ rest) ≠ [] := by
    intro empty
    rw [Text.joined_eq_nil_iff (by simp [some_])] at empty
    have lengths := congrArg List.length empty
    have := List.length_pos_iff.mpr some_
    simp only [List.length_append, List.length_take, List.length_singleton] at lengths
    omega
  simp only [resolvedPath, ended, Bool.false_eq_true, ↓reduceIte]
  rw [merged, withoutDots_climbing (isDots_directorySegments plain) noDots,
    if_neg (by simpa using several)]

end Merging

section Sharing

/-- No more segments are shared than the directory has. -/
theorem sharedSegments_le (directory target : List Text) :
    sharedSegments directory target ≤ directory.length := by
  fun_induction sharedSegments directory target with
  | case1 _ _ _ _ ih => exact Nat.succ_le_succ ih
  | case2 => exact Nat.zero_le _
  | case3 => exact Nat.zero_le _

/-- The last segment of a path is never shared. -/
theorem sharedSegments_lt (directory : List Text) {target : List Text} (some_ : target ≠ []) :
    sharedSegments directory target < target.length := by
  fun_induction sharedSegments directory target with
  | case1 _ _ _ _ ih => exact Nat.succ_lt_succ (ih (List.cons_ne_nil _ _))
  | case2 => exact Nat.succ_pos _
  | case3 => exact List.length_pos_iff.mpr some_

/-- Shared segments are the same in both. -/
theorem take_sharedSegments (directory target : List Text) :
    directory.take (sharedSegments directory target) =
      target.take (sharedSegments directory target) := by
  fun_induction sharedSegments directory target with
  | case1 _ _ _ _ ih => rw [List.take_succ_cons, List.take_succ_cons, ih]
  | case2 => rfl
  | case3 => rfl

/-- A directory is shared with everything inside of it. -/
theorem sharedSegments_append (directory : List Text) {rest : List Text} (some_ : rest ≠ []) :
    sharedSegments directory (directory ++ rest) = directory.length := by
  induction directory with
  | nil => rfl
  | cons segment directory ih =>
    obtain ⟨next, more, found⟩ :=
      List.exists_cons_of_ne_nil (List.append_ne_nil_of_right_ne_nil directory some_)
    rw [List.cons_append, found, sharedSegments, if_pos rfl, ← found, ih, List.length_cons]

end Sharing

section Relative

variable {base path : Text}

/-- The segments of a path relative to the directory of a base. -/
def relativeSegments (base path : Text) : List Text :=
  let shared := sharedSegments (directorySegments base) (Text.fields '/' path)
  List.replicate ((directorySegments base).length - shared) ['.', '.'] ++
    (Text.fields '/' path).drop shared

/-- Steps to the parent directory are segments like the others. -/
theorem flatten_parents (count : Nat) {rest : List Text} (some_ : rest ≠ []) :
    (List.replicate count ['.', '.', '/']).flatten ++ Text.joined '/' rest =
      Text.joined '/' (List.replicate count ['.', '.'] ++ rest) := by
  induction count with
  | zero => rfl
  | succ count ih =>
    have later : List.replicate count ['.', '.'] ++ rest ≠ [] :=
      List.append_ne_nil_of_right_ne_nil _ some_
    have next : List.replicate (count + 1) ['.', '.'] ++ rest =
        ['.', '.'] :: (List.replicate count ['.', '.'] ++ rest) := rfl
    rw [next, Text.joined_cons _ later, ← ih, List.replicate_succ, List.flatten_cons,
      List.append_assoc]
    rfl

/-- At least the last segment of a path is not shared. -/
theorem drop_sharedSegments_ne_nil (base path : Text) :
    (Text.fields '/' path).drop
      (sharedSegments (directorySegments base) (Text.fields '/' path)) ≠ [] := by
  have := sharedSegments_lt (directorySegments base) (Text.fields_ne_nil '/' path)
  rw [Ne, List.drop_eq_nil_iff]
  omega

/-- A relative path is made of its segments. -/
theorem relativePath_eq (nonempty : path ≠ []) :
    relativePath base path = Text.joined '/' (relativeSegments base path) := by
  have target : (if path.isEmpty then ['/'] else path) = path := if_neg (by simpa using nonempty)
  rw [relativeSegments, ← flatten_parents _ (drop_sharedSegments_ne_nil base path)]
  simp only [relativePath, target]
  rfl

/-- **A relative path has the relative segments.** -/
theorem fields_relativePath (nonempty : path ≠ []) :
    Text.fields '/' (relativePath base path) = relativeSegments base path := by
  rw [relativePath_eq nonempty]
  refine Text.fields_joined
    (List.append_ne_nil_of_right_ne_nil _ (drop_sharedSegments_ne_nil base path)) ?_
  intro segment member
  rcases List.mem_append.mp member with parent | kept
  · simp [List.eq_of_mem_replicate parent]
  · exact Text.notMem_of_mem_fields segment (List.mem_of_mem_drop kept)

/-- Plain segments are plain from any one on. -/
theorem arePlain_drop {segments : List Text} (plain : arePlain segments = true) (count : Nat) :
    arePlain (segments.drop count) = true := by
  obtain ⟨nonempty, noDots⟩ := arePlain_iff.mp plain
  refine arePlain_iff.mpr ⟨fun segment member => ?_, fun segment member => ?_⟩
  · rw [List.dropLast_drop_eq_drop_dropLast] at member
    exact nonempty segment (List.mem_of_mem_drop member)
  · exact noDots segment (List.mem_of_mem_drop member)

/-- A relative path is resolved to what lies in the directory of the base. -/
theorem fields_resolvedPath (plainBase : base = [] ∨ isPlainPath base = true)
    (plain : arePlain (Text.fields '/' path) = true) :
    Text.fields '/' (resolvedPath base path) =
      directorySegments base ++ Text.fields '/' path := by
  have some_ := Text.fields_ne_nil '/' path
  obtain ⟨inner, segments, -⟩ := exists_directorySegments plainBase
  have inside : 0 < (directorySegments base).length := by simp [segments]
  rw [resolvedPath_eq plainBase inside some_ plain rfl, Nat.sub_zero, List.take_length]
  refine Text.fields_joined (List.append_ne_nil_of_right_ne_nil _ some_) ?_
  exact List.forall_mem_append.mpr
    ⟨notMem_directorySegments base, Text.notMem_of_mem_fields⟩

/-- **Making a path relative undoes resolving it.** -/
theorem relativePath_resolvedPath (plainBase : base = [] ∨ isPlainPath base = true)
    (plain : arePlain (Text.fields '/' path) = true) :
    relativePath base (resolvedPath base path) = path := by
  have fields := fields_resolvedPath plainBase plain
  have nonempty : resolvedPath base path ≠ [] := by
    intro empty
    obtain ⟨inner, segments, -⟩ := exists_directorySegments plainBase
    rw [empty, segments] at fields
    exact Text.fields_ne_nil '/' path (List.append_eq_nil_iff.mp (List.cons.inj fields).2.symm).2
  rw [relativePath_eq nonempty, relativeSegments, fields,
    sharedSegments_append _ (Text.fields_ne_nil '/' path), Nat.sub_self, List.drop_left]
  exact Text.joined_fields '/' path

/-- The empty segment before the first slash is shared with every absolute path. -/
theorem sharedSegments_pos (inner : List Text) (rest : Text) :
    0 < sharedSegments ([] :: inner) (Text.fields '/' ('/' :: rest)) := by
  obtain ⟨next, more, found⟩ := List.exists_cons_of_ne_nil (Text.fields_ne_nil '/' rest)
  rw [fields_absolute, found, sharedSegments, if_pos rfl]
  exact Nat.succ_pos _

/-- What is left of a plain path without the segments that it shares is plain. -/
theorem arePlain_drop_sharedSegments (plainBase : isPlainPath base = true)
    (plain : isPlainPath path = true) :
    arePlain ((Text.fields '/' path).drop
      (sharedSegments (directorySegments base) (Text.fields '/' path))) = true := by
  obtain ⟨inner, directory, -⟩ := exists_directorySegments (.inr plainBase)
  obtain ⟨rest, rfl, plainRest⟩ := exists_of_isPlainPath plain
  have shares := sharedSegments_pos inner rest
  rw [← directory] at shares
  obtain ⟨count, found⟩ := Nat.exists_eq_succ_of_ne_zero (Nat.pos_iff_ne_zero.mp shares)
  rw [found, fields_absolute, List.drop_succ_cons]
  exact arePlain_drop plainRest count

/-- **Resolving a path undoes making it relative.** -/
theorem resolvedPath_relativePath (plainBase : isPlainPath base = true)
    (plain : isPlainPath path = true) : resolvedPath base (relativePath base path) = path := by
  obtain ⟨inner, directory, -⟩ := exists_directorySegments (.inr plainBase)
  have plainLeft := arePlain_drop_sharedSegments plainBase plain
  obtain ⟨rest, rfl, -⟩ := exists_of_isPlainPath plain
  have segments : Text.fields '/' (relativePath base ('/' :: rest)) = _ :=
    fields_relativePath (List.cons_ne_nil '/' rest)
  have some_ := drop_sharedSegments_ne_nil base ('/' :: rest)
  have taken := take_sharedSegments (directorySegments base) (Text.fields '/' ('/' :: rest))
  have bound := sharedSegments_le (directorySegments base) (Text.fields '/' ('/' :: rest))
  have shares := sharedSegments_pos inner rest
  rw [← directory] at shares
  rw [relativeSegments] at segments
  generalize sharedSegments (directorySegments base) (Text.fields '/' ('/' :: rest)) = shared at *
  rw [resolvedPath_eq (.inr plainBase) (by omega) some_ plainLeft segments,
    Nat.sub_sub_self bound, taken, List.take_append_drop, Text.joined_fields]

/-- The relative path is empty just for the directory of the base, which the empty path would be
resolved to. -/
theorem relativePath_eq_nil_iff (plainBase : isPlainPath base = true)
    (plain : isPlainPath path = true) :
    relativePath base path = [] ↔ path = directoryPath base := by
  have plainNil : arePlain (Text.fields '/' []) = true := rfl
  have directory : resolvedPath base [] = directoryPath base := by
    rw [← Text.joined_fields '/' (resolvedPath base []),
      fields_resolvedPath (.inr plainBase) plainNil]
    rfl
  rw [← directory]
  constructor
  · intro empty
    rw [← empty, resolvedPath_relativePath plainBase plain]
  · rintro rfl
    exact relativePath_resolvedPath (.inr plainBase) plainNil

/-- A relative path is not absolute. -/
theorem head?_relativePath (plainBase : isPlainPath base = true)
    (plain : isPlainPath path = true) : (relativePath base path).head? ≠ some '/' := by
  refine head?_ne_of_nonempty ?_
  rw [fields_relativePath (ne_nil_of_isPlainPath plain)]
  exact nonempty_climbing (drop_sharedSegments_ne_nil base path)
    (arePlain_iff.mp (arePlain_drop_sharedSegments plainBase plain)).1 _

/-- A resolved path is absolute. -/
theorem head?_resolvedPath (plainBase : base = [] ∨ isPlainPath base = true)
    (plain : arePlain (Text.fields '/' path) = true) :
    (resolvedPath base path).head? = some '/' := by
  obtain ⟨inner, segments, -⟩ := exists_directorySegments plainBase
  have later : inner ++ Text.fields '/' path ≠ [] :=
    List.append_ne_nil_of_right_ne_nil _ (Text.fields_ne_nil '/' path)
  rw [← Text.joined_fields '/' (resolvedPath base path), fields_resolvedPath plainBase plain,
    segments, List.cons_append, Text.joined_cons [] later]
  rfl

/-- The last segment of a path stays the last one of what it is resolved to. -/
theorem getLast?_fields_resolvedPath (plainBase : base = [] ∨ isPlainPath base = true)
    (plain : arePlain (Text.fields '/' path) = true) :
    (Text.fields '/' (resolvedPath base path)).getLast? = (Text.fields '/' path).getLast? := by
  rw [fields_resolvedPath plainBase plain,
    List.getLast?_append_of_ne_nil _ (Text.fields_ne_nil '/' path)]

/-- The last segment of a path stays the last one of the relative path. -/
theorem getLast?_fields_relativePath (nonempty : path ≠ []) :
    (Text.fields '/' (relativePath base path)).getLast? = (Text.fields '/' path).getLast? := by
  have inside := sharedSegments_lt (directorySegments base) (Text.fields_ne_nil '/' path)
  rw [fields_relativePath nonempty, relativeSegments,
    List.getLast?_append_of_ne_nil _ (drop_sharedSegments_ne_nil base path), List.getLast?_drop,
    if_neg (Nat.not_le.mpr inside)]

end Relative

section Characters

variable {base path : Text} {c : Char}

/-- What a resolved path holds comes from the base or from the path. -/
theorem mem_resolvedPath (plainBase : base = [] ∨ isPlainPath base = true)
    (plain : arePlain (Text.fields '/' path) = true) (other : c ≠ '/')
    (member : c ∈ resolvedPath base path) : c ∈ base ∨ c ∈ path := by
  rw [Text.mem_iff_exists_fields other, fields_resolvedPath plainBase plain] at member
  obtain ⟨segment, member, inside⟩ := member
  rcases List.mem_append.mp member with ofBase | ofPath
  · exact .inl (mem_of_mem_directorySegments ofBase inside)
  · exact .inr ((Text.mem_iff_exists_fields other).mpr ⟨segment, ofPath, inside⟩)

/-- What a relative path holds comes from the path or climbs. -/
theorem mem_relativePath (nonempty : path ≠ []) (other : c ≠ '/') (dot : c ≠ '.')
    (member : c ∈ relativePath base path) : c ∈ path := by
  rw [Text.mem_iff_exists_fields other, fields_relativePath nonempty] at member
  obtain ⟨segment, member, inside⟩ := member
  rcases List.mem_append.mp member with parent | kept
  · rw [List.eq_of_mem_replicate parent] at inside
    simp [dot] at inside
  · exact (Text.mem_iff_exists_fields other).mpr ⟨segment, List.mem_of_mem_drop kept, inside⟩

end Characters

end UriTemplates.Reference

import Mathlib.Data.Rat.Defs
import UriTemplates.Value

/-!
# Keys of mappings

When two data are the same key, and what a mapping keeps of the pairs it is built from. Every datum
but a sequence is told apart as a key by an identity (`Datum.sameKey_iff`): numbers by the number
they are, and other data by themselves. So a pair is kept just if its key does not come again later
(`Datum.forall_mem_merged_iff`), and the pairs of a mapping with different keys are kept as they are
(`Datum.merged_of_distinct`).
-/

namespace UriTemplates

/-- The denominator of a number is not zero. -/
theorem Double.pos_of_ratio? {number : Double} {top : Int} {bottom : Nat}
    (ratio : number.ratio? = some (top, bottom)) : 0 < bottom := by
  cases number with
  | nan => cases ratio
  | infinite negative => cases ratio
  | finite negative mantissa exponent =>
    rw [Double.ratio?] at ratio
    split at ratio
    · cases ratio
      exact Nat.pow_pos Nat.two_pos
    · cases ratio
      exact Nat.one_pos

namespace Datum

theorem pos_of_ratio? {datum : Datum} {top : Int} {bottom : Nat}
    (ratio : datum.ratio? = some (top, bottom)) : 0 < bottom := by
  cases datum with
  | truth value =>
    cases ratio
    exact Nat.one_pos
  | whole number =>
    cases ratio
    exact Nat.one_pos
  | double number => exact Double.pos_of_ratio? ratio
  | _ => cases ratio

/-- The finite number that a datum is. -/
def number? (datum : Datum) : Option ℚ :=
  datum.ratio?.map fun ratio => mkRat ratio.1 ratio.2

/-- Whether a datum is no number and is the same key as itself. -/
def isOnlyItself : Datum → Bool
  | nothing => true
  | text _ => true
  | bytes _ => true
  | double (.infinite _) => true
  | _ => false

/-- What a datum is told apart by as a key, if it is no sequence: a number by the number it is, and
other data by themselves. -/
def identity? (datum : Datum) : Option (ℚ ⊕ Datum) :=
  if datum.isOnlyItself then some (.inr datum) else datum.number?.map .inl

/-- A datum that is no number is the same key as itself alone. -/
theorem sameKey_of_isOnlyItself {first second : Datum} (only : first.isOnlyItself = true) :
    sameKey first second = true ↔ first = second := by
  cases first with
  | nothing => cases second <;> simp [sameKey, ratio?]
  | text _ => cases second <;> simp [sameKey, ratio?]
  | bytes _ => cases second <;> simp [sameKey, ratio?]
  | double number =>
    cases number with
    | infinite negative =>
      cases second with
      | double other => cases other <;> simp [sameKey, ratio?, Double.ratio?]
      | _ => simp [sameKey, ratio?, Double.ratio?]
    | _ => cases only
  | _ => cases only

/-- Whether two quotients are the same number. -/
def sameRatio : Option (Int × Nat) → Option (Int × Nat) → Bool
  | some (a, b), some (c, d) => a * d = c * b
  | _, _ => false

/-- Keys that are numbers are the same if their quotients are. -/
theorem sameKey_eq_sameRatio {first second : Datum} (flat : first.kindAsKey? = none)
    (only : first.isOnlyItself = false) :
    sameKey first second = sameRatio first.ratio? second.ratio? := by
  cases first with
  | truth _ => cases second <;> rfl
  | whole _ => cases second <;> rfl
  | double number =>
    cases number with
    | infinite _ => cases only
    | _ => cases second <;> rfl
  | unsupported => cases second <;> rfl
  | list _ => cases flat
  | tuple _ => cases flat
  | set _ => cases flat
  | mapping _ => cases flat
  | _ => cases only

/-- Keys that are numbers are the same if they are the same number. -/
theorem sameKey_of_number {first second : Datum} (flat : first.kindAsKey? = none)
    (only : first.isOnlyItself = false) :
    sameKey first second = true ↔
      ∃ number, first.number? = some number ∧ second.number? = some number := by
  rw [sameKey_eq_sameRatio flat only]
  cases here : first.ratio? with
  | none => simp [number?, here, sameRatio]
  | some ratio =>
    cases there : second.ratio? with
    | none => simp [number?, there, sameRatio]
    | some other =>
      have bottom : ratio.2 ≠ 0 := (pos_of_ratio? here).ne'
      have otherBottom : other.2 ≠ 0 := (pos_of_ratio? there).ne'
      have compared : sameRatio (some ratio) (some other) = true ↔
          mkRat ratio.1 ratio.2 = mkRat other.1 other.2 := by
        rw [Rat.mkRat_eq_iff bottom otherBottom]
        exact decide_eq_true_iff
      rw [compared, number?, number?, here, there]
      simp [eq_comm]

/-- A datum that is only itself is no number. -/
theorem number?_of_isOnlyItself {datum : Datum} (only : datum.isOnlyItself = true) :
    datum.number? = none := by
  cases datum with
  | double number => cases number <;> first | rfl | cases only
  | _ => first | rfl | cases only

/-- A datum is told apart by a number if it is this number. -/
theorem identity?_eq_inl_iff {datum : Datum} {number : ℚ} :
    datum.identity? = some (.inl number) ↔ datum.number? = some number := by
  by_cases only : datum.isOnlyItself = true
  · simp [identity?, only, number?_of_isOnlyItself only]
  · simp [identity?, only]

/-- A datum is told apart by itself if it is no number. -/
theorem identity?_eq_inr_iff {datum other : Datum} :
    datum.identity? = some (.inr other) ↔ datum.isOnlyItself = true ∧ datum = other := by
  by_cases only : datum.isOnlyItself = true
  · simp [identity?, only]
  · simp [identity?, only]

/-- A sequence has no identity. -/
theorem kindAsKey?_of_identity? {datum : Datum} {identity : ℚ ⊕ Datum}
    (known : datum.identity? = some identity) : datum.kindAsKey? = none := by
  cases datum <;> first | rfl | cases known

/-- **Same keys have the same identity**, if they are no sequences. -/
theorem sameKey_iff {first second : Datum} (flat : first.kindAsKey? = none) :
    sameKey first second = true ↔
      ∃ identity, first.identity? = some identity ∧ second.identity? = some identity := by
  by_cases only : first.isOnlyItself = true
  · have itself : first.identity? = some (.inr first) := identity?_eq_inr_iff.mpr ⟨only, rfl⟩
    rw [sameKey_of_isOnlyItself only, itself]
    constructor
    · intro same
      exact ⟨_, rfl, same ▸ itself⟩
    · rintro ⟨identity, here, there⟩
      cases here
      exact (identity?_eq_inr_iff.mp there).2.symm
  · rw [sameKey_of_number flat (Bool.eq_false_iff.mpr only)]
    constructor
    · rintro ⟨number, here, there⟩
      exact ⟨.inl number, identity?_eq_inl_iff.mpr here, identity?_eq_inl_iff.mpr there⟩
    · rintro ⟨identity, here, there⟩
      cases identity with
      | inl number => exact ⟨number, identity?_eq_inl_iff.mp here, identity?_eq_inl_iff.mp there⟩
      | inr other => exact (only (identity?_eq_inr_iff.mp here).1).elim

/-- Same keys are the same keys as others. -/
theorem sameKey_congr {first second : Datum} (flat : first.kindAsKey? = none)
    (same : sameKey first second = true) (other : Datum) :
    sameKey first other = sameKey second other := by
  obtain ⟨identity, here, there⟩ := (sameKey_iff flat).mp same
  rw [Bool.eq_iff_iff, sameKey_iff flat, sameKey_iff (kindAsKey?_of_identity? there), here, there]

/-- A key that is the same as two others makes these the same. -/
theorem sameKey_of_same {first second key : Datum} (flat : first.kindAsKey? = none)
    (flatToo : second.kindAsKey? = none) (same : sameKey first key = true)
    (sameToo : sameKey second key = true) : sameKey first second = true := by
  obtain ⟨identity, here, there⟩ := (sameKey_iff flat).mp same
  obtain ⟨other, hereToo, thereToo⟩ := (sameKey_iff flatToo).mp sameToo
  obtain rfl : identity = other := Option.some.inj (there.symm.trans thereToo)
  exact (sameKey_iff flat).mpr ⟨identity, here, hereToo⟩

/-- Whether a datum can be a key of a mapping once truth values are spelled out. -/
def IsKey (datum : Datum) : Prop :=
  datum.kindAsKey? = none ∧ Value.spelledOut datum = datum

/-- Whether data are keys of which no two are the same. -/
structure AreKeys (keys : List Datum) : Prop where
  /-- Each of them can be a key. -/
  each : ∀ key ∈ keys, key.IsKey
  /-- An earlier key is not the same as a later one. -/
  distinct : keys.Pairwise fun first second => sameKey first second = false

variable {pairs slots : List (Datum × Datum)} {key value : Datum}

/-- A value under a new key comes last, and one under a present key leaves the keys as they are. -/
theorem keys_put :
    (put key value slots).map Prod.fst =
      if ∃ slot ∈ slots, sameKey slot.1 key = true then slots.map Prod.fst
      else slots.map Prod.fst ++ [key] := by
  induction slots with
  | nil => simp [put]
  | cons slot rest ih =>
    rw [put]
    by_cases same : sameKey slot.1 key = true
    · simp [same]
    · simp only [same, List.mem_cons, exists_eq_or_imp, false_or, Bool.false_eq_true, ↓reduceIte,
        List.map_cons, ih]
      split <;> rfl

/-- With a new key, keys are still told apart. -/
theorem AreKeys.put (keys : AreKeys (slots.map Prod.fst)) (new : key.IsKey) :
    AreKeys ((put key value slots).map Prod.fst) := by
  rw [keys_put]
  by_cases present : ∃ slot ∈ slots, sameKey slot.1 key = true
  · rw [if_pos present]
    exact keys
  · rw [if_neg present]
    refine ⟨?_, List.pairwise_append.mpr ⟨keys.distinct, List.pairwise_singleton _ _, ?_⟩⟩
    · intro other member
      apply (List.mem_append.mp member).elim (keys.each other)
      intro last
      exact List.mem_singleton.mp last ▸ new
    · intro other member last same
      obtain ⟨slot, among, rfl⟩ := List.mem_map.mp member
      rw [List.mem_singleton.mp same]
      exact Bool.eq_false_iff.mpr fun again => present ⟨slot, among, again⟩

/-- Whether a key comes again among pairs. -/
def Repeats (key : Datum) (pairs : List (Datum × Datum)) : Prop :=
  ∃ pair ∈ pairs, sameKey key pair.1 = true

/-- Whether a property holds of every pair whose key does not come again. -/
def HoldsOfLast (holds : Datum × Datum → Prop) : List (Datum × Datum) → Prop
  | [] => True
  | pair :: later => (Repeats pair.1 later ∨ holds pair) ∧ HoldsOfLast holds later

/-- Whether a property of pairs is the same for the same keys. -/
def Respects (holds : Datum × Datum → Prop) : Prop :=
  ∀ first second value, first.IsKey → second.IsKey → sameKey first second = true →
    (holds (first, value) ↔ holds (second, value))

theorem repeats_cons_iff {pair : Datum × Datum} :
    Repeats key (pair :: pairs) ↔ sameKey key pair.1 = true ∨ Repeats key pairs := by
  simp [Repeats]

variable {holds : Datum × Datum → Prop}

/-- Whether a key comes again or has a property is the same for the same keys. -/
theorem Respects.or_repeats (respects : Respects holds) (later : List (Datum × Datum)) :
    Respects fun pair => Repeats pair.1 later ∨ holds pair := by
  intro first second value here there same
  simp only [Repeats, sameKey_congr here.1 same, respects first second value here there same]

/-- A property of all pairs after a value is put: the pair of the same key does not count any
more. -/
theorem forall_mem_put_iff (respects : Respects holds) (keys : AreKeys (slots.map Prod.fst))
    (new : key.IsKey) :
    (∀ pair ∈ put key value slots, holds pair) ↔
      (∀ slot ∈ slots, sameKey slot.1 key = true ∨ holds slot) ∧ holds (key, value) := by
  induction slots with
  | nil => simp [put]
  | cons slot rest ih =>
    obtain ⟨each, distinct⟩ := keys
    rw [List.map_cons] at each distinct
    obtain ⟨here, later⟩ := List.forall_mem_cons.mp each
    obtain ⟨apart, distinct⟩ := List.pairwise_cons.mp distinct
    rw [put, List.forall_mem_cons]
    by_cases same : sameKey slot.1 key = true
    · -- No other key is the same as the new one, so the other pairs all count.
      have others : ∀ other ∈ rest, ¬ sameKey other.1 key = true := by
        intro other member again
        have among : other.1 ∈ rest.map Prod.fst := List.mem_map_of_mem member
        have both := sameKey_of_same here.1 (later _ among).1 same again
        exact Bool.eq_false_iff.mp (apart _ among) both
      have rewritten : holds (slot.1, value) ↔ holds (key, value) :=
        respects slot.1 key value here new same
      rw [if_pos same, List.forall_mem_cons, rewritten]
      constructor
      · rintro ⟨last, kept⟩
        exact ⟨⟨.inl same, fun other member => .inr (kept other member)⟩, last⟩
      · rintro ⟨⟨-, kept⟩, last⟩
        exact ⟨last, fun other member => (kept other member).resolve_left (others other member)⟩
    · rw [if_neg same, List.forall_mem_cons, ih ⟨later, distinct⟩, or_iff_right same, and_assoc]

/-- **A pair counts just if its key does not come again.** A property holds of all pairs that a
mapping keeps if it holds of every pair that no later one replaces. -/
theorem forall_mem_merged_iff (respects : Respects holds) (each : ∀ pair ∈ pairs, pair.1.IsKey) :
    (∀ pair ∈ merged pairs, holds pair) ↔ HoldsOfLast holds pairs := by
  -- Put after slots that are there already, pairs also replace the slots whose keys come again.
  suffices general : ∀ slots : List (Datum × Datum), AreKeys (slots.map Prod.fst) →
      ((∀ pair ∈ pairs.foldl (fun slots pair => put pair.1 pair.2 slots) slots, holds pair) ↔
        (∀ slot ∈ slots, Repeats slot.1 pairs ∨ holds slot) ∧ HoldsOfLast holds pairs) from
    (general [] ⟨List.forall_mem_nil _, .nil⟩).trans (and_iff_right (List.forall_mem_nil _))
  induction pairs with
  | nil =>
    intro slots _
    simp [HoldsOfLast, Repeats]
  | cons pair later ih =>
    intro slots keys
    obtain ⟨here, eachLater⟩ := List.forall_mem_cons.mp each
    rw [List.foldl_cons, ih eachLater _ (keys.put here),
      forall_mem_put_iff (respects.or_repeats later) keys here]
    simp only [HoldsOfLast, repeats_cons_iff, or_assoc, and_assoc]

/-- A new key is put at the end. -/
theorem put_of_new (new : ∀ slot ∈ slots, sameKey slot.1 key = false) :
    put key value slots = slots ++ [(key, value)] := by
  induction slots with
  | nil => rfl
  | cons slot rest ih =>
    obtain ⟨here, later⟩ := List.forall_mem_cons.mp new
    rw [put, here, if_neg Bool.false_ne_true, ih later, List.cons_append]

/-- **Pairs with different keys** are kept as they are. -/
theorem merged_of_distinct
    (distinct : pairs.Pairwise fun first second => sameKey first.1 second.1 = false) :
    merged pairs = pairs := by
  suffices general : ∀ slots : List (Datum × Datum),
      (∀ slot ∈ slots, ∀ pair ∈ pairs, sameKey slot.1 pair.1 = false) →
        pairs.foldl (fun slots pair => put pair.1 pair.2 slots) slots = slots ++ pairs from
    general [] (List.forall_mem_nil _)
  induction pairs with
  | nil => simp
  | cons pair later ih =>
    intro slots apart
    obtain ⟨here, distinct⟩ := List.pairwise_cons.mp distinct
    have new : ∀ slot ∈ slots, sameKey slot.1 pair.1 = false := fun slot member =>
      apart slot member pair List.mem_cons_self
    rw [List.foldl_cons, put_of_new new, ih distinct, List.append_assoc, List.singleton_append]
    intro slot member other among
    rcases List.mem_append.mp member with old | last
    · exact apart slot old other (List.mem_cons_of_mem _ among)
    · rw [List.mem_singleton.mp last]
      exact here other among

end Datum

end UriTemplates

import Mathlib.Data.ENat.Basic
import Mathlib.Data.List.Induction
import Mathlib.Data.List.Nodup
import Mathlib.Data.List.Perm.Subperm
import UriTemplates.Binding.Merged
import UriTemplates.Proofs.OrderedMap
import UriTemplates.Proofs.Steps

/-!
# Agreeing bindings

When the bindings of one name can be put together. Two bindings agree if equal lengths have
equal values and the value of a shorter one begins the value of a longer one
(`Binding.Agrees`). Adding a binding compares it with the kept one only
(`Bindings.add_eq_ok_iff`), which is a longest one so far (`Bindings.represent_ofList`). So
bindings are put together in every order just where they all agree
(`Bindings.ofList_reconciles`), but in some order they may be where they do not, for a binding
that was replaced is compared with no later one (`Bindings.ofList_disagreeing`).
-/

namespace UriTemplates

namespace OrderedMap

variable {κ α : Type} [DecidableEq κ]

/-- Maps have the same entries if one has the entries of the other in some order. -/
theorem sameEntries_iff_perm [DecidableEq α] {first second : OrderedMap κ α} :
    first.sameEntries second = true ↔ first.entries.Perm second.entries := by
  have within : (first.entries.all fun entry => second.get? entry.1 == some entry.2) = true ↔
      first.entries ⊆ second.entries := by
    simp only [List.all_eq_true, beq_iff_eq, get?_eq_some_iff]
    rfl
  rw [sameEntries, Bool.and_eq_true, beq_iff_eq, size, size]
  constructor
  · rintro ⟨sizes, found⟩
    have distinct := first.distinct.of_map
    exact (List.subperm_of_subset distinct (within.mp found)).perm_of_length_le sizes.ge
  · intro perm
    exact ⟨perm.length_eq, within.mpr perm.subset⟩

end OrderedMap

namespace Value

/-- Values are the same if they are equal, or if they are maps with the same entries in some order.
-/
theorem same_iff {first second : Value} :
    first.same second = true ↔ first = second ∨ ∃ entries others, first = .map entries ∧
      second = .map others ∧ entries.entries.Perm others.entries := by
  cases first <;> cases second <;> simp [same, OrderedMap.sameEntries_iff_perm]
  rintro rfl
  exact .refl _

theorem same_refl (value : Value) : value.same value = true :=
  same_iff.mpr (.inl rfl)

/-- Being the same value does not depend on which of the two comes first. -/
theorem same_symm {first second : Value} (same : first.same second = true) :
    second.same first = true := by
  rcases same_iff.mp same with rfl | ⟨entries, others, rfl, rfl, perm⟩
  · exact same_refl first
  · exact same_iff.mpr (.inr ⟨others, entries, rfl, rfl, perm.symm⟩)

theorem same_trans {first second third : Value} (same : first.same second = true)
    (next : second.same third = true) : first.same third = true := by
  rcases same_iff.mp same with rfl | ⟨entries, others, rfl, rfl, perm⟩
  · exact next
  · rcases same_iff.mp next with rfl | ⟨_, more, known, rfl, permNext⟩
    · exact same
    · cases known
      exact same_iff.mpr (.inr ⟨entries, more, rfl, rfl, perm.trans permNext⟩)

/-- A text is the same value as nothing but itself. -/
theorem eq_text_of_same {value : Value} {text : Text}
    (same : Value.same (.text text) value = true) : value = .text text := by
  rcases same_iff.mp same with known | ⟨_, _, known, -⟩
  · exact known.symm
  · cases known

end Value

/-- Whether a value is a text that begins another one. -/
def Value.Begins (first second : Value) : Prop :=
  ∃ short long, first = .text short ∧ second = .text long ∧ short <+: long

/-- How many code points of a text a variable writes at most: any number without a
truncation. -/
def Variable.reach (v : Variable) : WithTop Nat :=
  match v.length? with
  | some length => length
  | none => ⊤

namespace Binding

/-- The name that a binding is for. -/
def name (binding : Binding) : Text :=
  binding.occurrence.name

/-- How many code points of a text a binding can show. -/
def reach (binding : Binding) : WithTop Nat :=
  binding.occurrence.reach

/-- Whether two bindings of one name can stem from one value: where they reach equally far
their values are equal, and otherwise the shorter value begins the longer one. -/
structure Agrees (first second : Binding) : Prop where
  same : first.reach = second.reach → first.value.same second.value = true
  begins : first.reach < second.reach → first.value.Begins second.value
  begun : second.reach < first.reach → second.value.Begins first.value

theorem agrees_self (binding : Binding) : binding.Agrees binding where
  same _ := Value.same_refl _
  begins shorter := (lt_irrefl _ shorter).elim
  begun shorter := (lt_irrefl _ shorter).elim

/-- Bindings that reach equally far agree if their values are the same. -/
theorem agrees_iff_same {first second : Binding} (equal : first.reach = second.reach) :
    first.Agrees second ↔ first.value.same second.value = true :=
  ⟨fun agrees => agrees.same equal, fun same =>
    ⟨fun _ => same, fun shorter => (shorter.ne equal).elim, fun longer => (longer.ne' equal).elim⟩⟩

/-- A binding that reaches less far agrees with another if its value begins the other one's. -/
theorem agrees_iff_begins {first second : Binding} (shorter : first.reach < second.reach) :
    first.Agrees second ↔ first.value.Begins second.value :=
  ⟨fun agrees => agrees.begins shorter, fun begins =>
    ⟨fun equal => (shorter.ne equal).elim, fun _ => begins,
      fun longer => (shorter.asymm longer).elim⟩⟩

/-- A binding that reaches farther agrees with another if the other one's value begins its own. -/
theorem agrees_iff_begun {first second : Binding} (longer : second.reach < first.reach) :
    first.Agrees second ↔ second.value.Begins first.value :=
  ⟨fun agrees => agrees.begun longer, fun begins =>
    ⟨fun equal => (longer.ne' equal).elim, fun shorter => (shorter.asymm longer).elim,
      fun _ => begins⟩⟩

/-- What agrees with a binding agrees with every other one that reaches as far and has the
same value. -/
theorem Agrees.of_same {first second third : Binding} (agrees : first.Agrees third)
    (reach : first.reach = second.reach) (same : first.value.same second.value = true) :
    second.Agrees third where
  same equal := Value.same_trans (Value.same_symm same) (agrees.same (reach.trans equal))
  begins shorter := by
    obtain ⟨short, long, known, rest⟩ := agrees.begins (reach ▸ shorter)
    exact ⟨short, long, Value.eq_text_of_same (known ▸ same), rest⟩
  begun longer := by
    obtain ⟨short, long, first, known, rest⟩ := agrees.begun (reach ▸ longer)
    exact ⟨short, long, first, Value.eq_text_of_same (known ▸ same), rest⟩

end Binding

namespace Bindings

/-- The longer of two occurrences is the one that reaches farther. -/
theorem isLonger_iff {first second : Binding} :
    isLonger first.occurrence.length? second.occurrence.length? = true ↔
      second.reach < first.reach := by
  unfold Binding.reach Variable.reach
  cases first.occurrence.length? <;> cases second.occurrence.length? <;> simp [isLonger]

/-- Occurrences have the same length if they reach equally far. -/
theorem length?_eq_iff {first second : Binding} :
    first.occurrence.length? = second.occurrence.length? ↔ first.reach = second.reach := by
  unfold Binding.reach Variable.reach
  cases first.occurrence.length? <;> cases second.occurrence.length? <;> simp

/-- The longer one of two bindings, and the old one where they reach equally far. -/
def longer (old new : Binding) : Binding :=
  if old.reach < new.reach then new else old

/-- Of two bindings that agree the longer one is kept, and of two others none. -/
theorem keep?_eq_some_iff {old new kept : Binding} :
    keep? old new = some kept ↔ old.Agrees new ∧ kept = longer old new := by
  rcases lt_trichotomy old.reach new.reach with further | equal | nearer
  · have lengths : ¬ old.occurrence.length? = new.occurrence.length? :=
      fun same => further.ne (length?_eq_iff.mp same)
    have notLonger : isLonger old.occurrence.length? new.occurrence.length? = false := by
      rw [Bool.eq_false_iff, ne_eq, isLonger_iff]
      exact further.asymm
    rw [keep?, if_neg lengths, Binding.agrees_iff_begins further, longer, if_pos further]
    cases old.value <;> cases new.value <;> simp [Value.Begins, notLonger, @eq_comm _ kept]
  · have lengths : old.occurrence.length? = new.occurrence.length? := length?_eq_iff.mpr equal
    rw [keep?, if_pos lengths, Binding.agrees_iff_same equal, longer, if_neg equal.not_lt]
    split_ifs with same <;> simp [same, @eq_comm _ kept]
  · have lengths : ¬ old.occurrence.length? = new.occurrence.length? :=
      fun same => nearer.ne (length?_eq_iff.mp same).symm
    have isLonger : isLonger old.occurrence.length? new.occurrence.length? = true :=
      isLonger_iff.mpr nearer
    rw [keep?, if_neg lengths, Binding.agrees_iff_begun nearer, longer, if_neg nearer.asymm]
    cases old.value <;> cases new.value <;> simp [Value.Begins, isLonger, @eq_comm _ kept]

end Bindings

instance (first second : Binding) : Decidable (first.Agrees second) :=
  decidable_of_iff ((Bindings.keep? first second).isSome = true) (by
    simp [Option.isSome_iff_exists, Bindings.keep?_eq_some_iff])

/-- Whether a binding stands for all those of its name among some bindings: it is one of them,
none of them reaches further, and those that reach as far have its value. -/
structure Binding.Represents (kept : Binding) (bindings : List Binding) : Prop where
  mem : kept ∈ bindings
  reach_le : ∀ other ∈ bindings, other.name = kept.name → other.reach ≤ kept.reach
  same : ∀ other ∈ bindings, other.name = kept.name → kept.reach = other.reach →
    kept.value.same other.value = true

namespace Binding.Represents

variable {kept binding : Binding} {bindings : List Binding}

/-- What represents some bindings still represents them with a binding of another name. -/
theorem append_of_ne (represents : kept.Represents bindings) (differs : binding.name ≠ kept.name) :
    kept.Represents (bindings ++ [binding]) where
  mem := List.mem_append_left _ represents.mem
  reach_le := List.forall_mem_append.mpr ⟨represents.reach_le, by simp [differs]⟩
  same := List.forall_mem_append.mpr ⟨represents.same, by simp [differs]⟩

/-- The first binding of its name represents itself. -/
theorem append_of_first (first : ∀ other ∈ bindings, other.name ≠ binding.name) :
    binding.Represents (bindings ++ [binding]) where
  mem := List.mem_append_right _ List.mem_cons_self
  reach_le := List.forall_mem_append.mpr
    ⟨fun other member named => (first other member named).elim, by simp⟩
  same := List.forall_mem_append.mpr
    ⟨fun other member named => (first other member named).elim, by simp [Value.same_refl]⟩

/-- The longer one of a representing binding and a new one that it agrees with. -/
theorem longer (represents : kept.Represents bindings) (named : kept.name = binding.name)
    (agrees : kept.Agrees binding) :
    (Bindings.longer kept binding).Represents (bindings ++ [binding]) := by
  unfold Bindings.longer
  split_ifs with further
  · refine ⟨by simp, List.forall_mem_append.mpr ⟨fun other member own => ?_, by simp⟩,
      List.forall_mem_append.mpr ⟨fun other member own equal => ?_, by simp [Value.same_refl]⟩⟩
    · exact (represents.reach_le other member (own.trans named.symm)).trans further.le
    · have shorter := represents.reach_le other member (own.trans named.symm)
      exact (shorter.not_gt (equal ▸ further)).elim
  · refine ⟨List.mem_append_left _ represents.mem,
      List.forall_mem_append.mpr ⟨represents.reach_le, ?_⟩,
      List.forall_mem_append.mpr ⟨represents.same, ?_⟩⟩
    · simpa using fun _ => not_lt.mp further
    · simpa using fun _ equal => agrees.same equal

end Binding.Represents

namespace Bindings

/-- A binding is added if it agrees with the one that is kept for its name, and then the longer
one of both is kept. -/
theorem add_eq_ok_iff {bindings added : Bindings} {binding : Binding} :
    bindings.add binding = .ok added ↔
      (∀ old, bindings.get? binding.name = some old → old.Agrees binding) ∧
        added = bindings.insert binding.name
          (((bindings.get? binding.name).map (longer · binding)).getD binding) := by
  have named : binding.occurrence.name = binding.name := rfl
  rw [add, named]
  cases bindings.get? binding.name with
  | none => simp [@eq_comm _ added, Binding.name]
  | some old =>
    cases kept : keep? old binding with
    | none =>
      have disagrees : ¬ old.Agrees binding := fun agrees => by
        simpa [kept] using keep?_eq_some_iff.mpr ⟨agrees, rfl⟩
      simp [kept, disagrees]
    | some kept =>
      obtain ⟨agrees, rfl⟩ := keep?_eq_some_iff.mp kept
      simp [kept, agrees, @eq_comm _ added, Binding.name]

/-- Whether bindings by name represent those of a list. -/
structure Represent (merged : Bindings) (bindings : List Binding) : Prop where
  absent : ∀ name, merged.get? name = none → ∀ binding ∈ bindings, binding.name ≠ name
  present : ∀ name kept, merged.get? name = some kept →
    kept.name = name ∧ kept.Represents bindings

/-- **Adding a binding** keeps a longest one for every name. -/
theorem Represent.add {merged added : Bindings} {bindings : List Binding} {binding : Binding}
    (represent : merged.Represent bindings) (accepted : merged.add binding = .ok added) :
    added.Represent (bindings ++ [binding]) := by
  obtain ⟨agrees, rfl⟩ := add_eq_ok_iff.mp accepted
  refine ⟨fun name unbound => ?_, fun name kept found => ?_⟩
  · rw [OrderedMap.get?_insert] at unbound
    split_ifs at unbound with own
    exact List.forall_mem_append.mpr ⟨represent.absent name unbound, by simpa using own⟩
  · rw [OrderedMap.get?_insert] at found
    split_ifs at found with own
    · subst own
      obtain rfl := Option.some.inj found
      cases known : merged.get? binding.name with
      | none => exact ⟨rfl, .append_of_first (represent.absent _ known)⟩
      | some old =>
        obtain ⟨named, represents⟩ := represent.present _ old known
        have further := represents.longer named (agrees old known)
        refine ⟨?_, further⟩
        rw [Option.map_some, Option.getD_some, longer]
        split_ifs
        · rfl
        · exact named
    · obtain ⟨named, represents⟩ := represent.present name kept found
      exact ⟨named, represents.append_of_ne (named ▸ own)⟩

/-- A last binding is added to what the bindings before it have become. -/
theorem ofList_append {bindings : List Binding} {binding : Binding} {added : Bindings} :
    ofList (bindings ++ [binding]) = .ok added ↔
      ∃ merged, ofList bindings = .ok merged ∧ merged.add binding = .ok added := by
  rw [ofList, List.foldlM_append, bind_eq_ok_iff]
  simp only [List.foldlM_cons, List.foldlM_nil, bind_eq_ok_iff, return_eq_ok_iff, exists_eq_right]
  rfl

/-- **What is kept of bindings** represents them. -/
theorem represent_ofList {bindings : List Binding} {merged : Bindings}
    (kept : ofList bindings = .ok merged) : merged.Represent bindings := by
  induction bindings using List.reverseRecOn generalizing merged with
  | nil =>
    obtain rfl : OrderedMap.empty = merged := return_eq_ok_iff.mp kept
    exact ⟨nofun, nofun⟩
  | append_singleton bindings binding ih =>
    obtain ⟨before, keptBefore, added⟩ := ofList_append.mp kept
    exact (ih keptBefore).add added

/-- **Bindings are only put together in vain** where a name is bound twice. -/
theorem exists_of_ofList_eq_error {bindings : List Binding} {error : Error}
    (refused : ofList bindings = .error error) :
    ∃ name, error = .inconsistentBinding name ∧ 2 ≤ (bindings.map Binding.name).count name := by
  induction bindings using List.reverseRecOn with
  | nil => cases refused
  | append_singleton bindings binding ih =>
    rw [List.map_append, List.map_singleton]
    simp only [List.count_append]
    have split : ofList (bindings ++ [binding]) = ofList bindings >>= (add · binding) := by
      rw [ofList, List.foldlM_append]
      simp [ofList]
    rw [split] at refused
    cases merged : ofList bindings with
    | error before =>
      rw [merged] at refused
      cases refused
      obtain ⟨name, same, twice⟩ := ih merged
      exact ⟨name, same, Nat.le_add_right_of_le twice⟩
    | ok kept =>
      rw [merged] at refused
      change kept.add binding = .error error at refused
      unfold add at refused
      split at refused
      · cases refused
      · rename_i old found
        split at refused
        · cases refused
          obtain ⟨named, represents⟩ := (represent_ofList merged).present _ old found
          have once : 0 < (bindings.map Binding.name).count old.name :=
            List.count_pos_iff.mpr (List.mem_map_of_mem represents.mem)
          refine ⟨_, rfl, ?_⟩
          rw [named] at once
          have again : [binding.name].count binding.occurrence.name = 1 := by
            simp [Binding.name]
          omega
        · cases refused

/-- Whether every binding agrees with the longest ones before it. -/
def AgreeWithLongest (bindings : List Binding) : Prop :=
  ∀ earlier binding later, bindings = earlier ++ binding :: later →
    ∀ old ∈ earlier, old.name = binding.name →
      (∀ other ∈ earlier, other.name = binding.name → other.reach ≤ old.reach) →
        old.Agrees binding

/-- With a last binding, every binding agrees with the longest ones before it if this was so before
and the last one agrees with the longest ones of its name. -/
theorem agreeWithLongest_append {bindings : List Binding} {binding : Binding} :
    AgreeWithLongest (bindings ++ [binding]) ↔ AgreeWithLongest bindings ∧
      ∀ old ∈ bindings, old.name = binding.name →
        (∀ other ∈ bindings, other.name = binding.name → other.reach ≤ old.reach) →
          old.Agrees binding := by
  constructor
  · intro agree
    refine ⟨fun earlier other later split => ?_, agree bindings binding [] rfl⟩
    exact agree earlier other (later ++ [binding]) (by simp [split])
  · rintro ⟨agree, last⟩ earlier other later split
    rcases List.eq_nil_or_concat later with rfl | ⟨later, final, rfl⟩
    · obtain ⟨rfl, same⟩ := List.append_inj' split rfl
      cases same
      exact last
    · obtain ⟨same, -⟩ := List.append_inj' (split.trans (by simp :
        earlier ++ other :: later.concat final = (earlier ++ other :: later) ++ [final])) rfl
      exact agree earlier other later same

/-- **When bindings are put together**: when each one agrees with the longest ones of its name
before it. -/
theorem exists_ofList_iff {bindings : List Binding} :
    (∃ merged, ofList bindings = .ok merged) ↔ AgreeWithLongest bindings := by
  induction bindings using List.reverseRecOn with
  | nil => exact ⟨fun _ earlier _ _ split => by simp at split, fun _ => ⟨_, rfl⟩⟩
  | append_singleton bindings binding ih =>
    rw [agreeWithLongest_append, ← ih]
    simp only [ofList_append]
    constructor
    · rintro ⟨added, merged, kept, accepted⟩
      refine ⟨⟨merged, kept⟩, fun old member named longest => ?_⟩
      have represent := represent_ofList kept
      cases known : merged.get? binding.name with
      | none => exact (represent.absent _ known old member named).elim
      | some first =>
        obtain ⟨own, represents⟩ := represent.present _ first known
        have equal : first.reach = old.reach := le_antisymm
          (longest first represents.mem own) (represents.reach_le old member (named.trans own.symm))
        exact ((add_eq_ok_iff.mp accepted).1 first known).of_same equal
          (represents.same old member (named.trans own.symm) equal)
    · rintro ⟨⟨merged, kept⟩, agree⟩
      refine ⟨_, merged, kept, add_eq_ok_iff.mpr ⟨fun old known => ?_, rfl⟩⟩
      obtain ⟨own, represents⟩ := (represent_ofList kept).present _ old known
      exact agree old represents.mem own fun other member named =>
        represents.reach_le other member (named.trans own.symm)

/-- Whether any two bindings of one name agree. -/
def AllAgree (bindings : List Binding) : Prop :=
  ∀ first ∈ bindings, ∀ second ∈ bindings, first.name = second.name → first.Agrees second

instance (bindings : List Binding) : Decidable (AllAgree bindings) :=
  inferInstanceAs (Decidable (∀ first ∈ bindings, ∀ second ∈ bindings, _ → _))

/-- Bindings that all agree are put together. -/
theorem exists_ofList_of_allAgree {bindings : List Binding} (agree : AllAgree bindings) :
    ∃ merged, ofList bindings = .ok merged := by
  refine exists_ofList_iff.mpr fun earlier binding later split old member named _ => ?_
  subst split
  exact agree old (List.mem_append_left _ member) binding (by simp) named

/-- Bindings are put together in every order just if any two of one name agree: two that do not
are refused where they come first. -/
theorem allAgree_iff_forall_perm {bindings : List Binding} :
    AllAgree bindings ↔
      ∀ others : List Binding, others.Perm bindings → ∃ merged, ofList others = .ok merged := by
  constructor
  · intro agree others perm
    exact exists_ofList_of_allAgree fun first member second memberOther =>
      agree first (perm.subset member) second (perm.subset memberOther)
  · intro all first member second memberOther named
    by_cases same : second = first
    · rw [same]
      exact Binding.agrees_self first
    · have front := List.perm_cons_erase member
      have next := List.perm_cons_erase ((List.mem_erase_of_ne same).mpr memberOther)
      have agree := exists_ofList_iff.mp (all _ (front.trans (next.cons first)).symm)
      exact agree [first] second _ rfl first (List.mem_singleton_self first) named (by simp)

/-- All that represents some bindings, in any order, has the same values. -/
theorem Represent.same_value {merged more : Bindings} {bindings others : List Binding}
    (represent : merged.Represent bindings) (representMore : more.Represent others)
    (perm : others.Perm bindings) (name : Text) :
    (merged.get? name).isSome = (more.get? name).isSome ∧
      (Environment.value merged.values name).same (Environment.value more.values name) = true := by
  rw [Environment.value, Environment.value, values, values, OrderedMap.get?_mapValues,
    OrderedMap.get?_mapValues]
  cases known : merged.get? name with
  | none =>
    cases knownMore : more.get? name with
    | none => exact ⟨rfl, rfl⟩
    | some kept =>
      obtain ⟨named, represents⟩ := representMore.present name kept knownMore
      exact (represent.absent name known kept (perm.subset represents.mem) named).elim
  | some kept =>
    obtain ⟨named, represents⟩ := represent.present name kept known
    cases knownMore : more.get? name with
    | none =>
      have member := perm.symm.subset represents.mem
      exact (representMore.absent name knownMore kept member named).elim
    | some other =>
      obtain ⟨namedOther, representsOther⟩ := representMore.present name other knownMore
      have member := perm.subset representsOther.mem
      have equal : kept.reach = other.reach := le_antisymm
        (representsOther.reach_le kept (perm.symm.subset represents.mem)
          (named.trans namedOther.symm))
        (represents.reach_le other member (namedOther.trans named.symm))
      exact ⟨rfl, represents.same other member (namedOther.trans named.symm) equal⟩

/-- **Putting bindings together** succeeds just where each one agrees with the longest ones of
its name before it. It succeeds in every order just where any two bindings of one name agree,
and all orders in which it succeeds give the same values. -/
theorem ofList_reconciles (bindings : List Binding) :
    ((∃ merged, ofList bindings = .ok merged) ↔ AgreeWithLongest bindings) ∧
      (AllAgree bindings ↔
        ∀ others : List Binding, others.Perm bindings → ∃ merged, ofList others = .ok merged) ∧
      ∀ others : List Binding, others.Perm bindings → ∀ merged more,
        ofList bindings = .ok merged → ofList others = .ok more →
          ∀ name, (merged.get? name).isSome = (more.get? name).isSome ∧
            (Environment.value merged.values name).same
              (Environment.value more.values name) = true :=
  ⟨exists_ofList_iff, allAgree_iff_forall_perm, fun _ perm _ _ kept keptMore =>
    (represent_ofList kept).same_value (represent_ofList keptMore) perm⟩

/-- A text after a beginning of it, and before it. -/
theorem ofList_reconciles_prefixes :
    let short : Variable := ⟨['v'], .truncated 2, rfl, rfl⟩
    let long : Variable := ⟨['v'], .plain, rfl, rfl⟩
    ∃ merged more,
      ofList [⟨short, .text ['a', 'é']⟩, ⟨long, .text ['a', 'é', 'b']⟩] = .ok merged ∧
        ofList [⟨long, .text ['a', 'é', 'b']⟩, ⟨short, .text ['a', 'é']⟩] = .ok more ∧
        ∀ name, (merged.get? name).isSome = (more.get? name).isSome ∧
          (Environment.value merged.values name).same
            (Environment.value more.values name) = true := by
  intro short long
  have agree : AllAgree [⟨short, .text ['a', 'é']⟩, ⟨long, .text ['a', 'é', 'b']⟩] := by decide
  have inOrder := (ofList_reconciles _).2.1.mp agree
  obtain ⟨merged, kept⟩ := inOrder _ (.refl _)
  obtain ⟨more, keptMore⟩ := inOrder _ (.swap _ _ [])
  exact ⟨merged, more, kept, keptMore,
    (ofList_reconciles _).2.2 _ (.swap _ _ []) _ _ kept keptMore⟩

/-- Bindings of one name that do not all agree are put together if the longest one stands
between the others, and refused in another order. -/
theorem ofList_disagreeing :
    let short : Variable := ⟨['v'], .truncated 1, rfl, rfl⟩
    let long : Variable := ⟨['v'], .plain, rfl, rfl⟩
    (∃ merged, ofList [⟨short, .text ['a']⟩, ⟨long, .text ['a']⟩, ⟨short, .text []⟩] =
        .ok merged) ∧
      ¬ AllAgree [⟨short, .text ['a']⟩, ⟨long, .text ['a']⟩, ⟨short, .text []⟩] ∧
      ofList [⟨short, .text ['a']⟩, ⟨short, .text []⟩, ⟨long, .text ['a']⟩] =
        .error (.inconsistentBinding ['v']) :=
  ⟨⟨_, rfl⟩, by decide, rfl⟩

end Bindings

end UriTemplates

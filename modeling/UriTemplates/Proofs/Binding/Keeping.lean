import UriTemplates.Proofs.Binding.Agreement

/-!
# The bindings that are kept

Which bindings remain when bindings are put together by name. A kept binding leads those of its
name (`Binding.Leads`): it is the earliest one among those that reach furthest, and the values of
the others follow from its value. Adding a binding preserves this: where the new one reaches
further it takes the lead, and what followed from the old one follows from it, too, for a beginning
of a beginning is a beginning (`Binding.Follows.trans`). The names stand in the order in which they
first occurred. Main statement: `Bindings.ofList_keeps`.
-/

namespace UriTemplates

namespace Template

/-- The names in the order of their first uses are the names that are used. -/
theorem mem_firstUses {names : List Text} {name : Text} :
    name ∈ firstUses names ↔ name ∈ names := by
  induction names with
  | nil => rfl
  | cons first rest ih =>
    by_cases same : name = first
    · simp [firstUses, same]
    · simp [firstUses, same, ih]

/-- A name that is used last is a first use just if it was not used before. -/
theorem firstUses_append (names : List Text) (name : Text) :
    firstUses (names ++ [name]) =
      if name ∈ names then firstUses names else firstUses names ++ [name] := by
  induction names with
  | nil => rfl
  | cons first rest ih =>
    rw [List.cons_append, firstUses, firstUses, ih]
    by_cases again : name ∈ rest
    · rw [if_pos again, if_pos (List.mem_cons_of_mem first again)]
    · rw [if_neg again, List.filter_append]
      by_cases same : name = first
      · simp [same]
      · simp [same, again]

end Template

namespace Binding

/-- Whether the value of a binding follows from the value of another one that reaches as far or
further. -/
def Follows (other kept : Binding) : Prop :=
  other.reach = kept.reach ∧ other.value.same kept.value = true ∨
    other.reach < kept.reach ∧ other.value.Begins kept.value

theorem follows_self (binding : Binding) : binding.Follows binding :=
  .inl ⟨rfl, Value.same_refl binding.value⟩

theorem Follows.reach_le {other kept : Binding} (follows : other.Follows kept) :
    other.reach ≤ kept.reach :=
  follows.elim (fun same => same.1.le) fun shorter => shorter.1.le

/-- What follows from a binding follows from every one that reaches further and that it begins. -/
theorem Follows.trans {other old new : Binding} (follows : other.Follows old)
    (further : old.reach < new.reach) (begins : old.value.Begins new.value) :
    other.Follows new := by
  refine .inr ⟨follows.reach_le.trans_lt further, ?_⟩
  obtain ⟨text, long, oldText, newText, start⟩ := begins
  obtain ⟨-, same⟩ | ⟨-, short, middle, otherText, known, before⟩ := follows
  · rw [oldText] at same
    exact ⟨text, long, Value.eq_text_of_same (Value.same_symm same), newText, start⟩
  · obtain rfl : text = middle := Value.text.inj (oldText.symm.trans known)
    exact ⟨short, long, otherText, newText, before.trans start⟩

/-- Whether a binding leads those of its name among some bindings: it is the earliest one of those
that reach furthest, and the values of the others follow from its own. -/
structure Leads (kept : Binding) (bindings : List Binding) : Prop where
  earliest : ∃ earlier later, bindings = earlier ++ kept :: later ∧
    ∀ other ∈ earlier, other.name = kept.name → other.reach < kept.reach
  follow : ∀ other ∈ bindings, other.name = kept.name → other.Follows kept

namespace Leads

variable {kept binding : Binding} {bindings : List Binding}

/-- The lead is not lost to a later binding from whose value the own one need not follow. -/
theorem append (leads : kept.Leads bindings)
    (behind : binding.name = kept.name → binding.Follows kept) :
    kept.Leads (bindings ++ [binding]) where
  earliest := by
    obtain ⟨earlier, later, split, before⟩ := leads.earliest
    exact ⟨earlier, later ++ [binding], by rw [split, List.append_assoc, List.cons_append], before⟩
  follow := List.forall_mem_append.mpr ⟨leads.follow, by simpa using behind⟩

/-- The first binding of a name leads. -/
theorem append_of_first (first : ∀ other ∈ bindings, other.name ≠ binding.name) :
    binding.Leads (bindings ++ [binding]) where
  earliest := ⟨bindings, [], rfl, fun other member named => (first other member named).elim⟩
  follow := List.forall_mem_append.mpr
    ⟨fun other member named => (first other member named).elim, by simp [follows_self]⟩

/-- A binding that reaches further than the leading one takes the lead. -/
theorem overtake (leads : kept.Leads bindings) (named : kept.name = binding.name)
    (further : kept.reach < binding.reach) (begins : kept.value.Begins binding.value) :
    binding.Leads (bindings ++ [binding]) := by
  have follow : ∀ other ∈ bindings, other.name = binding.name → other.Follows binding :=
    fun other member own =>
      (leads.follow other member (own.trans named.symm)).trans further begins
  refine ⟨⟨bindings, [], rfl, fun other member own => ?_⟩,
    List.forall_mem_append.mpr ⟨follow, by simp [follows_self]⟩⟩
  exact (leads.follow other member (own.trans named.symm)).reach_le.trans_lt further

/-- Of a leading binding and a new one that it agrees with the longer one leads. -/
theorem longer (leads : kept.Leads bindings) (named : kept.name = binding.name)
    (agrees : kept.Agrees binding) :
    (Bindings.longer kept binding).Leads (bindings ++ [binding]) := by
  unfold Bindings.longer
  by_cases further : kept.reach < binding.reach
  · rw [if_pos further]
    exact leads.overtake named further (agrees.begins further)
  · rw [if_neg further]
    apply leads.append
    intro _
    obtain equal | nearer := (not_lt.mp further).eq_or_lt
    · exact .inl ⟨equal, Value.same_symm (agrees.same equal.symm)⟩
    · exact .inr ⟨nearer, agrees.begun nearer⟩

end Leads

end Binding

namespace Bindings

/-- Whether bindings by name hold the leading ones of a list, by names in the order of their first
uses. -/
structure Lead (merged : Bindings) (bindings : List Binding) : Prop where
  keys : merged.keys = Template.firstUses (bindings.map Binding.name)
  leads : ∀ name kept, merged.get? name = some kept → kept.name = name ∧ kept.Leads bindings

/-- The names of the leading bindings are those of all bindings. -/
theorem Lead.mem_keys {merged : Bindings} {bindings : List Binding} (lead : merged.Lead bindings)
    {name : Text} : name ∈ merged.keys ↔ name ∈ bindings.map Binding.name := by
  rw [lead.keys, Template.mem_firstUses]

/-- **Adding a binding** keeps the leading ones. -/
theorem Lead.add {merged added : Bindings} {bindings : List Binding} {binding : Binding}
    (lead : merged.Lead bindings) (accepted : merged.add binding = .ok added) :
    added.Lead (bindings ++ [binding]) := by
  obtain ⟨agrees, rfl⟩ := add_eq_ok_iff.mp accepted
  refine ⟨?_, fun name kept found => ?_⟩
  · rw [OrderedMap.keys_insert, List.map_append, List.map_singleton, Template.firstUses_append,
      ← lead.keys]
    simp only [lead.mem_keys]
  · rw [OrderedMap.get?_insert] at found
    by_cases own : binding.name = name
    · subst own
      rw [if_pos rfl] at found
      obtain rfl := Option.some.inj found
      cases known : merged.get? binding.name with
      | none =>
        have absent := lead.mem_keys.not.mp (OrderedMap.lookup_eq_none_iff.mp known)
        refine ⟨rfl, .append_of_first fun other member same => absent ?_⟩
        exact same ▸ List.mem_map_of_mem member
      | some old =>
        obtain ⟨named, leads⟩ := lead.leads _ old known
        refine ⟨?_, leads.longer named (agrees old known)⟩
        rw [Option.map_some, Option.getD_some, Bindings.longer]
        split_ifs
        · rfl
        · exact named
    · rw [if_neg own] at found
      obtain ⟨named, leads⟩ := lead.leads name kept found
      exact ⟨named, leads.append fun same => (own (same.trans named)).elim⟩

/-- What bindings are put together to are the leading ones. -/
theorem lead_ofList {bindings : List Binding} {merged : Bindings}
    (kept : ofList bindings = .ok merged) : merged.Lead bindings := by
  induction bindings using List.reverseRecOn generalizing merged with
  | nil =>
    obtain rfl : OrderedMap.empty = merged := return_eq_ok_iff.mp kept
    exact ⟨rfl, nofun⟩
  | append_singleton bindings binding ih =>
    obtain ⟨before, keptBefore, added⟩ := ofList_append.mp kept
    exact (ih keptBefore).add added

/-- **What is kept of bindings.** The names are those of the bindings in the order in which they
first occur. For each name the earliest of its bindings is kept that reaches furthest, where no
truncation reaches furthest of all; every other binding of the name either reaches as far and has
the same value, or reaches less far and has a text for its value that begins the kept one. -/
theorem ofList_keeps {bindings : List Binding} {merged : Bindings}
    (put : ofList bindings = .ok merged) :
    merged.keys = Template.firstUses (bindings.map Binding.name) ∧
      ∀ name kept, merged.get? name = some kept → kept.name = name ∧
        ∃ earlier later, bindings = earlier ++ kept :: later ∧
          (∀ other ∈ earlier, other.name = name → other.reach < kept.reach) ∧
          (∀ other ∈ later, other.name = name → other.reach ≤ kept.reach) ∧
          ∀ other ∈ earlier ++ later, other.name = name →
            other.reach = kept.reach ∧ other.value.same kept.value = true ∨
              other.reach < kept.reach ∧ other.value.Begins kept.value := by
  have lead := lead_ofList put
  refine ⟨lead.keys, fun name kept found => ?_⟩
  obtain ⟨rfl, leads⟩ := lead.leads name kept found
  obtain ⟨earlier, later, split, before⟩ := leads.earliest
  have follow : ∀ other ∈ earlier ++ later, other.name = kept.name → other.Follows kept := by
    intro other member
    apply leads.follow other
    rw [split]
    exact ((List.sublist_cons_self kept later).append_left earlier).subset member
  exact ⟨rfl, earlier, later, split, before,
    fun other member named => (follow other (List.mem_append_right _ member) named).reach_le,
    follow⟩

/-- A text by growing beginnings, of which the longest comes twice, around a list. -/
theorem ofList_keeps_beginnings :
    let v (length : Nat) (valid : (Modifier.truncated length).isValid = true) : Variable :=
      ⟨['v'], .truncated length, rfl, valid⟩
    let w : Variable := ⟨['w'], .plain, rfl, rfl⟩
    let bindings : List Binding := [⟨v 1 rfl, .text ['a']⟩, ⟨w, .list [['x']]⟩,
      ⟨v 3 rfl, .text ['a', 'b']⟩, ⟨v 2 rfl, .text ['a', 'b']⟩, ⟨v 3 rfl, .text ['a', 'b']⟩]
    ∃ merged kept, ofList bindings = .ok merged ∧ merged.get? ['v'] = some kept ∧
      merged.keys = [['v'], ['w']] ∧
      ∃ earlier later, bindings = earlier ++ kept :: later ∧
        (∀ other ∈ earlier, other.name = ['v'] → other.reach < kept.reach) ∧
        ∀ other ∈ later, other.name = ['v'] → other.reach ≤ kept.reach := by
  intro v w bindings
  have put : ofList bindings = .ok ⟨[(['v'], ⟨v 3 rfl, .text ['a', 'b']⟩),
      (['w'], ⟨w, .list [['x']]⟩)], by decide⟩ := by decide
  obtain ⟨keys, each⟩ := ofList_keeps put
  obtain ⟨-, earlier, later, split, before, after, -⟩ := each ['v'] _ rfl
  exact ⟨_, _, put, rfl, keys, earlier, later, split, before, after⟩

end Bindings

end UriTemplates

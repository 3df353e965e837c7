import Mathlib.Data.List.Forall2
import UriTemplates.Proofs.Regex.Written

/-!
# Reading back what patterns are written as

What a pattern is written as only consists of characters, and its reader has to find out again what
belongs together. As every node is written as a group, it is one piece of whatever surrounds it
(`Pattern.RereadsInside.exists_group`); what stands in a group beside others is only the separator
of a repetition, which may have bars of its own (`Regex.sameReadings_withPiece`). So a pattern is
read back with the readings of the expression that it is written as
(`Pattern.exists_ofWritten?_text`).
-/

namespace UriTemplates

variable {κ : Type}

namespace Regex

/-- Whether two expressions read in the same ways, in the same order of preference. -/
def SameReadings (first second : Regex) : Prop :=
  ∀ β : Type, (first.readings : Readings β) = second.readings

/-- Expressions with the same readings match the same texts. -/
theorem SameReadings.isMatch_eq {first second : Regex} (same : first.SameReadings second)
    (text : Text) : first.isMatch text = second.isMatch text := by
  rw [Bool.eq_iff_iff, isMatch_iff (β := Unit), isMatch_iff (β := Unit), same]

variable {reads regexes : List Regex}

/-- Alternatives with the same readings have the same readings together. -/
theorem sameReadings_oneOf (same : List.Forall₂ SameReadings reads regexes) :
    (oneOf reads).SameReadings (oneOf regexes) := by
  intro β
  induction same with
  | nil => rfl
  | @cons read regex reads regexes first later ih =>
    cases later with
    | nil => exact first β
    | cons => simp only [oneOf, readings] at ih ⊢; rw [first, ih]

/-- Pieces, which are kept from the end, are read one after the other. -/
theorem readings_ofPieces {β : Type} (pieces : List Regex) :
    (ofPieces pieces).readings =
      pieces.reverse.foldr (fun piece later => piece.readings.andThen later)
        (Readings.stop : Readings β) := by
  rw [ofPieces_eq]
  induction pieces.reverse with
  | nil => rfl
  | cons piece pieces ih => rw [List.foldr_cons, readings_andThen, ih, List.foldr_cons]

/-- Pieces with the same readings have the same readings together, where no bar divides them. -/
theorem sameReadings_ofPieces (same : List.Forall₂ SameReadings reads regexes)
    (undivided : ∀ regex ∈ regexes, regex.isUndivided = true) :
    (ofPieces reads.reverse).SameReadings (spliceAll regexes) := by
  intro β
  rw [readings_ofPieces, List.reverse_reverse, (spliceAll_undivided undivided).2]
  clear undivided
  induction same with
  | nil => rfl
  | cons first later ih => rw [List.foldr_cons, List.foldr_cons, first, ih]

/-- Pieces without bars make up an expression without one. -/
theorem isUndivided_ofPieces {pieces : List Regex}
    (undivided : ∀ piece ∈ pieces, piece.isUndivided = true) :
    (ofPieces pieces).isUndivided = true := by
  rw [ofPieces_eq]
  replace undivided : ∀ piece ∈ pieces.reverse, piece.isUndivided = true := by
    simpa using undivided
  generalize pieces.reverse = ordered at undivided
  induction ordered with
  | nil => rfl
  | cons piece ordered ih =>
    obtain ⟨first, later⟩ := List.forall_mem_cons.mp undivided
    exact isUndivided_andThen first (ih later)

/-- One more piece is read after the others. -/
theorem readings_ofPieces_cons {β : Type} (last : Regex) (pieces : List Regex) :
    (ofPieces (last :: pieces)).readings =
      ((ofPieces pieces).readings.andThen last.readings : Readings β) := by
  rw [readings_ofPieces, readings_ofPieces, List.reverse_cons, List.foldr_append, List.foldr_cons,
    List.foldr_nil, Readings.andThen_stop]
  induction pieces.reverse with
  | nil => exact (Readings.stop_andThen _).symm
  | cons piece pieces ih => rw [List.foldr_cons, List.foldr_cons, ih, Readings.andThen_assoc]

/-- What is written directly after alternatives belongs to the last one. -/
theorem oneOf_concat_splice (regexes : List Regex) (last next : Regex) :
    (oneOf (regexes ++ [last])).splice next = oneOf (regexes ++ [last.splice next]) := by
  induction regexes with
  | nil => rfl
  | cons regex regexes ih =>
    rw [List.cons_append, oneOf_cons regex (List.concat_ne_nil last regexes), splice, ih,
      List.cons_append, oneOf_cons regex (List.concat_ne_nil _ regexes)]

/-- A piece after an expression that is divided by bars belongs to the last alternative. -/
theorem sameReadings_withPiece {last : OpenGroup} (undivided : last.IsUndivided)
    {read regex : Regex} (same : read.SameReadings regex)
    (undividedNext : regex.isUndivided = true) :
    (last.withPiece read).finished.SameReadings (last.finished.splice regex) := by
  have joined := splice_eq_andThen (isUndivided_ofPieces undivided) undividedNext
  have lastSame : (ofPieces (read :: last.pieces)).SameReadings
      ((ofPieces last.pieces).splice regex) := by
    intro β
    rw [readings_ofPieces_cons, joined, readings_andThen, same]
  rw [OpenGroup.finished, OpenGroup.finished, List.reverse_cons, List.reverse_cons,
    oneOf_concat_splice]
  apply sameReadings_oneOf
  exact List.rel_append (List.forall₂_same.mpr fun _ _ _ => rfl) (.cons lastSame .nil)

end Regex

namespace Pattern

open Regex (SameReadings Leads IsWritten OpenGroup)

/-- The fragment that a node itself is written with, if it has one. -/
def fragment? : Pattern κ → Option Regex
  | plain regex => some regex
  | repeated _ separator _ _ => some separator
  | _ => none

/-- Whether what a node is written as inside of its group is read, in a group, as an expression
with the same readings. -/
def RereadsInside (pattern : Pattern κ) : Prop :=
  ∃ last : OpenGroup, Leads pattern.body.text {} last ∧ last.finished.SameReadings pattern.body

/-- What a node is written as is read as a group with the same readings. -/
theorem RereadsInside.exists_group {pattern : Pattern κ} (rereads : pattern.RereadsInside) :
    ∃ read : Regex, (Regex.group read).SameReadings pattern.regex ∧ ∀ current outer after,
      Regex.readOn current outer (pattern.regex.text ++ after) =
        Regex.readOn (current.withPiece (.group read)) outer after := by
  obtain ⟨last, leads, same⟩ := rereads
  exact ⟨last.finished, same, fun current outer after => leads.readOn_group after⟩

/-- Nodes written one after the other are read as as many pieces. -/
theorem exists_pieces {nodes : List (Pattern κ)} (each : ∀ node ∈ nodes, node.RereadsInside)
    (current : OpenGroup) :
    ∃ reads, List.Forall₂ SameReadings reads (nodes.map regex) ∧ ∀ outer after,
      Regex.readOn current outer ((Regex.spliceAll (nodes.map regex)).text ++ after) =
        Regex.readOn ⟨current.alternatives, reads.reverse ++ current.pieces⟩ outer after := by
  induction nodes generalizing current with
  | nil => exact ⟨[], .nil, fun outer after => rfl⟩
  | cons node nodes ih =>
    obtain ⟨first, later⟩ := List.forall_mem_cons.mp each
    obtain ⟨read, same, readsOn⟩ := first.exists_group
    obtain ⟨reads, others, readsFurther⟩ := ih later (current.withPiece (.group read))
    refine ⟨.group read :: reads, .cons same others, fun outer after => ?_⟩
    have joined : (Regex.spliceAll ((node :: nodes).map regex)).text =
        node.regex.text ++ (Regex.spliceAll (nodes.map regex)).text :=
      Regex.text_splice _ _
    rw [joined, List.append_assoc, readsOn, readsFurther, List.reverse_cons, List.append_assoc]
    rfl

/-- What nodes are written as is not divided by bars, as every node is a group. -/
theorem isUndivided_map_regex (nodes : List (Pattern κ)) :
    ∀ written ∈ nodes.map regex, written.isUndivided = true := by
  intro written member
  obtain ⟨node, -, rfl⟩ := List.mem_map.mp member
  rfl

/-- A sequence is read as it was written if its nodes are. -/
theorem rereadsInside_seq {nodes : List (Pattern κ)} (each : ∀ node ∈ nodes, node.RereadsInside) :
    (seq nodes).RereadsInside := by
  obtain ⟨reads, same, readsOn⟩ := exists_pieces each {}
  refine ⟨⟨[], reads.reverse ++ []⟩, fun outer after _ => ?_, ?_⟩
  · rw [body, groups_eq_map, readsOn]
  · rw [body, groups_eq_map, List.append_nil]
    exact Regex.sameReadings_ofPieces same (isUndivided_map_regex nodes)

/-- Nodes written with bars between them are read as as many alternatives. -/
theorem exists_alternatives {first : Pattern κ} {options : List (Pattern κ)}
    (each : ∀ option ∈ first :: options, option.RereadsInside) (alternatives : List Regex) :
    ∃ reads, List.Forall₂ SameReadings reads ((first :: options).map regex) ∧
      ∃ last : OpenGroup,
        (Regex.ofPieces last.pieces :: last.alternatives).reverse = alternatives.reverse ++ reads ∧
        ∀ outer after,
          Regex.readOn ⟨alternatives, []⟩ outer
              ((Regex.oneOf ((first :: options).map regex)).text ++ after) =
            Regex.readOn last outer after := by
  obtain ⟨here, later⟩ := List.forall_mem_cons.mp each
  obtain ⟨read, same, readsOn⟩ := here.exists_group
  -- The alternatives read so far are those before `first`; a bar adds `first` to them.
  induction options generalizing first alternatives read with
  | nil =>
    refine ⟨[.group read], .cons same .nil, ⟨alternatives, [.group read]⟩, ?_, readsOn _⟩
    rw [List.reverse_cons]
    rfl
  | cons next options ih =>
    obtain ⟨nextRereads, others⟩ := List.forall_mem_cons.mp later
    obtain ⟨nextRead, nextSame, nextReadsOn⟩ := nextRereads.exists_group
    obtain ⟨reads, sameOthers, last, ended, readsFurther⟩ := ih later
      (.group read :: alternatives) nextRereads others nextRead nextSame nextReadsOn
    refine ⟨.group read :: reads, .cons same sameOthers, last, ?_, fun outer after => ?_⟩
    · rw [ended, List.reverse_cons, List.append_assoc]
      rfl
    · have divided : (Regex.oneOf ((first :: next :: options).map regex)).text =
          first.regex.text ++ '|' :: (Regex.oneOf ((next :: options).map regex)).text :=
        rfl
      rw [divided, List.append_assoc, readsOn, List.cons_append, Regex.readOn_bar]
      exact readsFurther outer after

/-- A choice is read as it was written if its options are. -/
theorem rereadsInside_choice {options : List (Pattern κ)}
    (each : ∀ option ∈ options, option.RereadsInside) : (choice options).RereadsInside := by
  cases options with
  | nil => exact ⟨{}, fun outer after _ => rfl, fun _ => rfl⟩
  | cons first options =>
    obtain ⟨reads, same, last, ended, readsOn⟩ := exists_alternatives each []
    refine ⟨last, fun outer after _ => ?_, ?_⟩
    · rw [body, groups_eq_map, readsOn]
    · rw [body, groups_eq_map, OpenGroup.finished, ended]
      exact Regex.sameReadings_oneOf same

theorem RereadsInside.capture {inner : Pattern κ} (rereads : inner.RereadsInside) (key : κ) :
    (Pattern.capture key inner).RereadsInside := by
  obtain ⟨last, leads, same⟩ := rereads
  refine ⟨⟨[], [.group last.finished]⟩, fun outer after _ => ?_, same⟩
  rw [body, leads.readOn_group]
  rfl

theorem RereadsInside.optional {inner : Pattern κ} (rereads : inner.RereadsInside)
    (isLazy : Bool) : (Pattern.optional inner isLazy).RereadsInside := by
  obtain ⟨last, leads, same⟩ := rereads
  refine ⟨_, leads.loop rfl isLazy, fun β => ?_⟩
  exact congrArg (Readings.loop · .optional isLazy) (same β)

/-- An element after a separator is read in one group with it. -/
theorem leads_separated {separator inner : Regex} {separated last : OpenGroup}
    (separates : Leads separator.text {} separated) (leads : Leads inner.text {} last) :
    Leads (separator.splice (.group inner)).text {}
      (separated.withPiece (.group last.finished)) := by
  intro outer after apart
  have starts : Regex.StartsApart ((Regex.group inner).text ++ after) := .opening _
  rw [Regex.text_splice, List.append_assoc, separates outer _ starts, leads.readOn_group]

/-- A repetition is read as it was written if its element is and its separator is a text of an
expression. -/
theorem RereadsInside.repeated {element : Pattern κ} (rereads : element.RereadsInside)
    {separator : Regex} (written : separator.IsWritten) (isLazy requiresMore : Bool) :
    (Pattern.repeated element separator isLazy requiresMore).RereadsInside := by
  obtain ⟨last, leads, same⟩ := rereads
  obtain ⟨separated, rfl, undivided, separates⟩ := written.exists_leads
  have marked : ∃ mark, (moreQuantifier requiresMore).text = [mark] := by
    cases requiresMore <;> exact ⟨_, rfl⟩
  obtain ⟨mark, marked⟩ := marked
  let further := (separated.withPiece (.group last.finished)).finished
  have sameFurther : further.SameReadings (separated.finished.splice (.group element.body)) :=
    Regex.sameReadings_withPiece undivided same rfl
  refine ⟨⟨[], [.loop (.group further) (moreQuantifier requiresMore) isLazy, .group last.finished]⟩,
    fun outer after apart => ?_, fun β => ?_⟩
  · rw [body, Regex.text_andThen, List.append_assoc, leads.readOn_group]
    exact (leads_separated separates leads).loop marked isLazy outer after apart
  · exact congrArg₂ Readings.andThen (same β)
      (congrArg (Readings.loop · (moreQuantifier requiresMore) isLazy) (sameFurther β))

/-- **Every node is read back**, given that its fragments are read from some texts. -/
theorem rereadsInside (pattern : Pattern κ)
    (written : ∀ node ∈ pattern.nodes, ∀ fragment ∈ node.fragment?, fragment.IsWritten) :
    pattern.RereadsInside := by
  refine induction_where ?plain ?capture ?seq ?choice ?optional ?repeated pattern written
  case plain =>
    intro regex written
    obtain ⟨last, ended, -, leads⟩ := (written regex rfl).exists_leads
    exact ⟨last, leads, fun β => by rw [ended]; rfl⟩
  case capture => exact fun key inner rereads => rereads.capture key
  case seq => exact fun nodes rereads => rereadsInside_seq rereads
  case choice => exact fun options _ rereads => rereadsInside_choice rereads
  case optional => exact fun inner isLazy rereads => rereads.optional isLazy
  case repeated =>
    intro element separator isLazy requiresMore written rereads
    exact rereads.repeated (written separator rfl) isLazy requiresMore

/-- **What a pattern is written as is read as an expression with the same readings.** -/
theorem exists_ofWritten?_text (pattern : Pattern κ)
    (written : ∀ node ∈ pattern.nodes, ∀ fragment ∈ node.fragment?, fragment.IsWritten) :
    ∃ regex, Regex.ofWritten? pattern.regex.text = some regex ∧
      regex.SameReadings pattern.regex := by
  obtain ⟨read, same, readsOn⟩ := (rereadsInside pattern written).exists_group
  refine ⟨.group read, ?_, same⟩
  have whole := readsOn {} [] []
  rw [List.append_nil] at whole
  exact whole

end Pattern

end UriTemplates

/-
This file proves what is left of a value that is turned into a JSON tree and back.

A tree tells null, truth values, numbers, strings, lists and objects apart, an integer from a double
of the same amount included, and keeps the order of lists and of names. Such a value comes back as
it was, down to the bits of its doubles. An instant and a record id come back as strings, and a
double that is not finite comes back as null. So the way through a tree changes exactly the values
with one of these three somewhere inside. What comes back has none of them, since trees of values
have only numbers that fit, and each tree of this kind is the tree of its value. A second time thus
changes nothing.
-/

import DocQuery.Proofs.LiteralReading
import DocQuery.Value.Json

namespace DocQuery

namespace Json

/-! ### Trees of values -/

mutual

/-- Whether every integer in the tree fits 64 bits and every double in it is finite. -/
def HasFittingNumbers : Json → Prop
  | .integer value => Text.fitsInt64 value = true
  | .float value => value.isFinite = true
  | .array items => HaveFittingNumbers items
  | .object entries => HaveFittingNumbersIn entries
  | _ => True

/-- Whether the numbers fit in all items of an array. -/
def HaveFittingNumbers : List Json → Prop
  | [] => True
  | item :: rest => item.HasFittingNumbers ∧ HaveFittingNumbers rest

/-- Whether the numbers fit in all entries of an object. -/
def HaveFittingNumbersIn : List (String × Json) → Prop
  | [] => True
  | (_, item) :: rest => item.HasFittingNumbers ∧ HaveFittingNumbersIn rest

end

end Json

namespace Value

mutual

/-- The numbers in the tree of a value fit. -/
theorem hasFittingNumbers_toJson : (value : Value) → value.toJson.HasFittingNumbers
  | .null => trivial
  | .bool _ => trivial
  | .int value => Text.fitsInt64_toInt value
  | .float value => by
    rw [toJson]
    split
    · rename_i finite
      exact finite
    · trivial
  | .string _ => trivial
  | .instant _ => trivial
  | .record _ => trivial
  | .list items => haveFittingNumbers_itemsToJson items
  | .object entries => haveFittingNumbersIn_entriesToJson entries

theorem haveFittingNumbers_itemsToJson : (items : List Value) →
    Json.HaveFittingNumbers (itemsToJson items)
  | [] => trivial
  | item :: rest => ⟨hasFittingNumbers_toJson item, haveFittingNumbers_itemsToJson rest⟩

theorem haveFittingNumbersIn_entriesToJson : (entries : List (String × Value)) →
    Json.HaveFittingNumbersIn (entriesToJson entries)
  | [] => trivial
  | (_, item) :: rest => ⟨hasFittingNumbers_toJson item, haveFittingNumbersIn_entriesToJson rest⟩

end

mutual

/-- A tree whose numbers fit is the tree of its value. -/
theorem toJson_ofJson : (tree : Json) → tree.HasFittingNumbers → (ofJson tree).toJson = tree
  | .null, _ => rfl
  | .bool _, _ => rfl
  | .integer value, fits => by
    rw [Json.HasFittingNumbers] at fits
    rw [ofJson, if_pos fits, toJson, Text.toInt_ofInt_of_fits fits]
  | .float value, finite => by
    rw [Json.HasFittingNumbers] at finite
    rw [ofJson, toJson, if_pos finite]
  | .string _, _ => rfl
  | .array items, fit => by
    rw [ofJson, toJson, itemsToJson_itemsOfJson items fit]
  | .object entries, fit => by
    rw [ofJson, toJson, entriesToJson_entriesOfJson entries fit]

theorem itemsToJson_itemsOfJson : (items : List Json) → Json.HaveFittingNumbers items →
    itemsToJson (itemsOfJson items) = items
  | [], _ => rfl
  | item :: rest, fit => by
    rw [itemsOfJson, itemsToJson, toJson_ofJson item fit.1, itemsToJson_itemsOfJson rest fit.2]

theorem entriesToJson_entriesOfJson : (entries : List (String × Json)) →
    Json.HaveFittingNumbersIn entries → entriesToJson (entriesOfJson entries) = entries
  | [], _ => rfl
  | (_, item) :: rest, fit => by
    rw [entriesOfJson, entriesToJson, toJson_ofJson item fit.1,
      entriesToJson_entriesOfJson rest fit.2]

end

/-! ### Through a tree and back -/

/-- What comes back of a value that is turned into a tree. -/
def throughJson (value : Value) : Value :=
  ofJson value.toJson

@[simp] theorem throughJson_list (items : List Value) :
    throughJson (.list items) = .list (items.map throughJson) := by
  induction items with
  | nil => rfl
  | cons item rest inductionHypothesis =>
    simp only [throughJson, toJson, ofJson, itemsToJson, itemsOfJson, List.map_cons,
      list.injEq] at inductionHypothesis ⊢
    rw [inductionHypothesis]

@[simp] theorem throughJson_object (entries : List (String × Value)) :
    throughJson (.object entries) =
      .object (entries.map fun entry => (entry.1, entry.2.throughJson)) := by
  induction entries with
  | nil => rfl
  | cons entry rest inductionHypothesis =>
    simp only [throughJson, toJson, ofJson, entriesToJson, entriesOfJson, List.map_cons,
      object.injEq] at inductionHypothesis ⊢
    rw [inductionHypothesis]

/-- Whether a value that holds no others comes back: it is no instant, no record id and no double
that is not finite. -/
def Survives : Value → Prop
  | .instant _ => False
  | .record _ => False
  | .float number => number.isFinite = true
  | _ => True

theorem throughJson_int (value : Int64) : throughJson (.int value) = .int value := by
  rw [throughJson, toJson, ofJson, if_pos (Text.fitsInt64_toInt value), Int64.ofInt_toInt]

/-- A double comes back exactly if it is finite; any other one comes back as null. -/
theorem throughJson_float_iff (number : Double) :
    throughJson (.float number) = .float number ↔ number.isFinite = true := by
  rw [throughJson, toJson]
  cases number.isFinite with
  | true => exact iff_of_true rfl rfl
  | false => exact iff_of_false nofun Bool.false_ne_true

mutual

/-- A value comes back exactly if everything in it that holds no others does. -/
theorem throughJson_eq_self_iff : (value : Value) →
    (value.throughJson = value ↔ ∀ leaf ∈ value.leaves, leaf.Survives)
  | .null => iff_of_true rfl (List.forall_mem_singleton.mpr trivial)
  | .bool _ => iff_of_true rfl (List.forall_mem_singleton.mpr trivial)
  | .int value => iff_of_true (throughJson_int value) (List.forall_mem_singleton.mpr trivial)
  | .float number => by
    show _ ↔ ∀ leaf ∈ [Value.float number], leaf.Survives
    rw [throughJson_float_iff, List.forall_mem_singleton, Survives]
  | .string _ => iff_of_true rfl (List.forall_mem_singleton.mpr trivial)
  | .instant _ => iff_of_false nofun fun survive => List.forall_mem_singleton.mp survive
  | .record _ => iff_of_false nofun fun survive => List.forall_mem_singleton.mp survive
  | .list items => by
    rw [throughJson_list, list.injEq, leaves, map_throughJson_eq_self_iff items]
  | .object entries => by
    rw [throughJson_object, object.injEq, leaves, map_snd_throughJson_eq_self_iff entries]

theorem map_throughJson_eq_self_iff : (items : List Value) →
    (items.map throughJson = items ↔ ∀ leaf ∈ leavesOf items, leaf.Survives)
  | [] => iff_of_true rfl (List.forall_mem_nil _)
  | item :: rest => by
    rw [List.map_cons, List.cons.injEq, leavesOf, List.forall_mem_append,
      throughJson_eq_self_iff item, map_throughJson_eq_self_iff rest]

theorem map_snd_throughJson_eq_self_iff : (entries : List (String × Value)) →
    (entries.map (fun entry => (entry.1, entry.2.throughJson)) = entries ↔
      ∀ leaf ∈ leavesIn entries, leaf.Survives)
  | [] => iff_of_true rfl (List.forall_mem_nil _)
  | (name, item) :: rest => by
    rw [List.map_cons, List.cons.injEq, Prod.mk.injEq, eq_self_iff_true, true_and, leavesIn,
      List.forall_mem_append, throughJson_eq_self_iff item, map_snd_throughJson_eq_self_iff rest]

end

/-- Turning values into trees and back normalizes them. Once is enough, and a value comes back as it
was, with the same bits in its doubles and in the same order, exactly if there is no instant, no
record id and no double that is not finite at any depth of it. In the other direction a tree comes
back as it was if its integers fit 64 bits and its doubles are finite. -/
theorem throughJson_normalizes :
    (∀ value : Value, value.throughJson.throughJson = value.throughJson) ∧
    (∀ value : Value, value.throughJson = value ↔ ∀ leaf ∈ value.leaves, leaf.Survives) ∧
    ∀ tree : Json, tree.HasFittingNumbers → (ofJson tree).toJson = tree := by
  refine ⟨fun value => ?_, throughJson_eq_self_iff, toJson_ofJson⟩
  have again : (ofJson value.toJson).toJson = value.toJson :=
    toJson_ofJson value.toJson value.hasFittingNumbers_toJson
  exact congrArg ofJson again

/-- A tree with the least integer, with numbers that are one as an integer and as a double, and with
the negative zero. -/
def numberedTree : Json :=
  .object [("z", .array [.integer (-9223372036854775808), .integer 1,
    .float ⟨0x3ff0000000000000⟩, .float ⟨0x8000000000000000⟩]), ("a", .object [])]

theorem throughJson_normalizes_numbered :
    numberedTree.HasFittingNumbers ∧ (ofJson numberedTree).toJson = numberedTree ∧
    (ofJson numberedTree).throughJson = ofJson numberedTree ∧
    (Value.list [ofJson numberedTree, .float ⟨0x7ff0000000000000⟩]).throughJson ≠
      .list [ofJson numberedTree, .float ⟨0x7ff0000000000000⟩] := by
  have fit : numberedTree.HasFittingNumbers :=
    ⟨⟨rfl, rfl, rfl, rfl, trivial⟩, trivial, trivial⟩
  obtain ⟨-, exactly, back⟩ := throughJson_normalizes
  refine ⟨fit, back numberedTree fit, congrArg ofJson (back numberedTree fit), ?_⟩
  rw [ne_eq, exactly]
  intro survive
  have finite := survive (.float ⟨0x7ff0000000000000⟩) (by simp [leaves, leavesOf])
  rw [Survives] at finite
  exact absurd finite (by decide)

end Value

end DocQuery

import Mathlib.Data.List.Chain
import MapBlocks.Transform.Edit

/-!
# Edits applied at once

Edits that stand in order and do not overlap describe one replacement: what lies
between their ranges stays, and each range gives way to its nodes.  Applied one
after the other, from the last to the first, they come to the same, because an
edit leaves alone whatever comes before it.  Only an end that lies past the list
and cannot be counted keeps edits from being applied.
-/

namespace MapBlocks.Transform

open Markdown (Node)

namespace Edit

/-- Edits in their order, each starting where the one before it stops or later, and none
starting past the end of a list of the given length. -/
structure Ordered (length : Nat) (edits : List Edit) : Prop where
  apart : edits.IsChain fun earlier later => earlier.stop ≤ later.index
  inside : ∀ last ∈ edits.getLast?, last.index ≤ length

/-- The nodes from a place on, with all ranges replaced at once: what lies before a range, what
takes its place, and so on behind it. -/
def replacedFrom (nodes : List Node) (start : Nat) : List Edit → List Node
  | [] => nodes.drop start
  | edit :: rest =>
      (nodes.take edit.index).drop start ++
        (edit.replacement ++ replacedFrom nodes edit.stop rest)

namespace Ordered

variable {length : Nat} {edit next : Edit} {rest : List Edit}

theorem tail (ordered : Ordered length (edit :: next :: rest)) :
    Ordered length (next :: rest) where
  apart := (List.isChain_cons_cons.mp ordered.apart).2
  inside last found := ordered.inside last (by simpa using found)

theorem stop_le (ordered : Ordered length (edit :: next :: rest)) : edit.stop ≤ next.index :=
  (List.isChain_cons_cons.mp ordered.apart).1

/-- The edits before the last one start within the list too. -/
theorem index_le (ordered : Ordered length (edit :: rest)) : edit.index ≤ length := by
  induction rest generalizing edit with
  | nil => exact ordered.inside edit rfl
  | cons next others induction =>
      calc edit.index
          ≤ edit.stop := Nat.le_add_right _ _
        _ ≤ next.index := ordered.stop_le
        _ ≤ length := induction ordered.tail

end Ordered

/-- An edit is applied behind what it leaves alone.  The nodes that it replaces may be fewer than
it asks for, but then none comes after them. -/
theorem applyTo?_take_append
    {edit : Edit} {nodes after : List Node} (inside : edit.index ≤ nodes.length)
    (counted : edit.hasEnd (nodes.take edit.stop ++ after).length = true)
    (short : nodes.length < edit.stop → after = []) :
    edit.applyTo? (nodes.take edit.stop ++ after) =
      some (nodes.take edit.index ++ (edit.replacement ++ after)) := by
  have before : edit.index ≤ edit.stop := Nat.le_add_right _ _
  have reached : edit.index ≤ (nodes.take edit.stop).length := by
    rw [List.length_take]
    omega
  have behind : (nodes.take edit.stop ++ after).drop edit.stop = after := by
    by_cases long : edit.stop ≤ nodes.length
    · exact List.drop_left' (List.length_take_of_le long)
    · rw [short (by omega), List.append_nil, List.drop_eq_nil_iff, List.length_take]
      omega
  have whole : edit.index ≤ (nodes.take edit.stop ++ after).length := by
    rw [List.length_append]
    omega
  rw [applyTo?, if_pos ⟨whole, counted⟩, behind, List.take_append_of_le_length reached,
    List.take_take, Nat.min_eq_left before]

/-- Up to the first range the nodes stay as they are. -/
theorem take_append_replacedFrom
    {nodes : List Node} {start : Nat} {edit : Edit} (before : start ≤ edit.index)
    (rest : List Edit) :
    nodes.take start ++ replacedFrom nodes start (edit :: rest) =
      nodes.take edit.index ++ (edit.replacement ++ replacedFrom nodes edit.stop rest) := by
  have untouched : nodes.take start ++ (nodes.take edit.index).drop start =
      nodes.take edit.index := by
    have divided := List.take_append_drop start (nodes.take edit.index)
    rwa [List.take_take, Nat.min_eq_left before] at divided
  rw [replacedFrom, ← List.append_assoc, untouched]

/-- Edits that can be applied replace everything at once, behind any place before the first. -/
theorem applyAll?_eq_replacedFrom
    {nodes : List Node} {edits : List Edit} (ordered : Ordered nodes.length edits)
    (counted : ∀ last ∈ edits.getLast?, last.hasEnd nodes.length = true)
    {start : Nat} (before : ∀ first ∈ edits.head?, start ≤ first.index) :
    applyAll? edits nodes = some (nodes.take start ++ replacedFrom nodes start edits) := by
  induction edits generalizing start with
  | nil => rw [applyAll?, replacedFrom, List.take_append_drop]
  | cons edit rest induction =>
      have inside : edit.index ≤ nodes.length := ordered.index_le
      rw [take_append_replacedFrom (before edit rfl)]
      cases rest with
      | nil =>
          have all : nodes.take edit.stop ++ nodes.drop edit.stop = nodes :=
            List.take_append_drop _ _
          have applied : edit.applyTo? (nodes.take edit.stop ++ nodes.drop edit.stop) = _ :=
            applyTo?_take_append inside (by rw [all]; exact counted edit rfl)
              fun short => List.drop_eq_nil_of_le short.le
          rw [all] at applied
          rw [applyAll?, applyAll?, Option.bind_some, applied, replacedFrom]
      | cons next others =>
          have stops : edit.stop ≤ nodes.length :=
            ordered.stop_le.trans ordered.tail.index_le
          have later : applyAll? (next :: others) nodes =
              some (nodes.take edit.stop ++ replacedFrom nodes edit.stop (next :: others)) := by
            apply induction ordered.tail
            · intro last found
              exact counted last (by simpa using found)
            · intro first found
              cases found
              exact ordered.stop_le
          rw [applyAll?, later, Option.bind_some]
          apply applyTo?_take_append inside
          · rw [hasEnd, List.length_append, List.length_take_of_le stops,
              decide_eq_true (Nat.le_add_right _ _), Bool.true_or]
          · intro short
            exact absurd stops (Nat.not_le.mpr short)

/-- The last edit is applied first, so it alone can fail. -/
theorem applyAll?_eq_none
    {nodes : List Node} {edits : List Edit} {last : Edit} (found : last ∈ edits.getLast?)
    (uncounted : last.hasEnd nodes.length = false) : applyAll? edits nodes = none := by
  induction edits with
  | nil => cases found
  | cons edit rest induction =>
      cases rest with
      | nil =>
          cases found
          change edit.hasEnd nodes.length = false at uncounted
          simp [applyAll?, applyTo?, uncounted]
      | cons next others =>
          rw [applyAll?, induction (by simpa using found), Option.bind_none]

/-- Edits in order replace their ranges at once, exactly if the last one has an end. -/
theorem applyAll?_of_ordered
    {nodes : List Node} {edits : List Edit} (ordered : Ordered nodes.length edits) :
    applyAll? edits nodes =
      if edits.getLast?.all (·.hasEnd nodes.length) then some (replacedFrom nodes 0 edits)
      else none := by
  split
  · rename_i counted
    have fromStart : ∀ first ∈ edits.head?, 0 ≤ first.index := fun first _ => Nat.zero_le _
    exact applyAll?_eq_replacedFrom ordered ((Option.all_eq_true _ _).mp counted) fromStart
  · rename_i uncounted
    cases found : edits.getLast? with
    | none => simp [found] at uncounted
    | some last => exact applyAll?_eq_none found (by simpa [found] using uncounted)

/-- Two insertions in one place and a range that runs past the end of the list. -/
theorem applyAll?_of_insertions :
    let nodes := [Node.html "a", Node.html "b", Node.html "c"]
    let edits : List Edit := [⟨1, 0, [.html "x"]⟩, ⟨1, 0, [.html "y"]⟩, ⟨2, 5, []⟩]
    Ordered nodes.length edits ∧
      applyAll? edits nodes = some [.html "a", .html "x", .html "y", .html "b"] := by
  intro nodes edits
  have ordered : Ordered nodes.length edits := ⟨by simp [edits, stop], by simp [edits, nodes]⟩
  exact ⟨ordered, applyAll?_of_ordered ordered⟩

/-- An edit may ask for so many nodes that its end cannot be counted, though index and number
are words of 64 bits. -/
theorem uncounted_end_fails :
    ¬∀ (nodes : List Node) (edits : List Edit),
      (∀ edit ∈ edits, edit.index < Nat.pow 2 64 ∧ edit.consumed < Nat.pow 2 64) →
      Ordered nodes.length edits →
      applyAll? edits nodes = some (replacedFrom nodes 0 edits) := by
  intro applied
  let nodes : List Node := [.html "a"]
  let edits : List Edit := [⟨1, 2 ^ 64 - 1, []⟩]
  have ordered : Ordered nodes.length edits := ⟨by simp [edits], by simp [edits, nodes]⟩
  have failed : applyAll? edits nodes = none := applyAll?_eq_none rfl (by decide)
  rw [applied nodes edits (by simp [edits]) ordered] at failed
  cases failed

end Edit

end MapBlocks.Transform

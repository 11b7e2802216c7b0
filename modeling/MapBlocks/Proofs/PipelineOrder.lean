import MapBlocks.Proofs.MapFreeTrees
import MapBlocks.Proofs.WrittenEntries
import MapBlocks.Transform.Standard

/-!
# Order and repetition in pipelines

Drawing maps and counting words each leave nothing to do for a second run, and
neither reads what the other writes.  A pipeline of the two therefore ends in the
state of the standard pipeline as soon as it holds both, in whatever order and
however often.
-/

namespace MapBlocks.Transform

namespace Pipeline

theorem execute_cons_of_ok
    {step : Step} {state : State} (succeeds : (step.run state).2 = .ok ())
    (rest : Pipeline) :
    execute (step :: rest) state = execute rest (step.run state).1 := by
  rw [execute]
  split
  · rename_i next run
    rw [run]
  · rename_i next error run
    rw [run] at succeeds
    cases succeeds

/-- What every step of a pipeline preserves holds after the whole of it. -/
theorem execute_preserves
    (invariant : State → Prop) {pipeline : Pipeline}
    (preserves : ∀ step ∈ pipeline, ∀ state, invariant state →
      (step.run state).2 = .ok () ∧ invariant (step.run state).1) :
    ∀ state, invariant state →
      (execute pipeline state).2 = .ok () ∧ invariant (execute pipeline state).1 := by
  induction pipeline with
  | nil =>
      intro state holds
      exact ⟨rfl, holds⟩
  | cons step rest induction =>
      intro state holds
      obtain ⟨succeeds, next⟩ := preserves step List.mem_cons_self state holds
      rw [execute_cons_of_ok succeeds]
      exact induction
        (fun other member => preserves other (List.mem_cons_of_mem _ member))
        (step.run state).1 next

/-- What one step of a pipeline brings about, and every step preserves, holds
after the whole of it. -/
theorem execute_establishes
    (invariant : State → Prop) {pipeline : Pipeline} {step : Step}
    (succeeds : ∀ other ∈ pipeline, ∀ state, (other.run state).2 = .ok ())
    (preserves : ∀ other ∈ pipeline, ∀ state, invariant state →
      invariant (other.run state).1)
    (establishes : ∀ state, invariant (step.run state).1)
    (member : step ∈ pipeline) :
    ∀ state, invariant (execute pipeline state).1 := by
  induction pipeline with
  | nil => cases member
  | cons first rest induction =>
      intro state
      rw [execute_cons_of_ok (succeeds first List.mem_cons_self state)]
      have inRest : ∀ other ∈ rest, other ∈ first :: rest :=
        fun other inside => List.mem_cons_of_mem _ inside
      rcases List.mem_cons.mp member with rfl | later
      · exact (execute_preserves invariant
          (fun other inside state holds =>
            ⟨succeeds other (inRest other inside) state,
              preserves other (inRest other inside) state holds⟩)
          _ (establishes state)).2
      · exact induction
          (fun other inside => succeeds other (inRest other inside))
          (fun other inside => preserves other (inRest other inside))
          later (first.run state).1

end Pipeline

section

variable (diagnose : String → String)

/-- The state after its maps are drawn. -/
def drawn (settings : Settings) (state : State) : State :=
  ((mapBlocks diagnose settings).run state).1

/-- The state after its words are counted. -/
def counted (state : State) : State := (wordCount.run state).1

theorem drawn_drawn (settings : Settings) (state : State) :
    drawn diagnose settings (drawn diagnose settings state) = drawn diagnose settings state := by
  have free := mapFree_mapBlocks diagnose settings state
  unfold drawn
  rw [mapBlocks_run_of_mapFree diagnose free]

theorem counted_counted (state : State) : counted (counted state) = counted state := by
  simp [counted, wordCount, recordWordCount, Markdown.Metadata.insert_insert]

/-- Words are counted in the source, which maps do not touch, and maps are drawn
in the tree. -/
theorem drawn_counted (settings : Settings) (state : State) :
    drawn diagnose settings (counted state) = counted (drawn diagnose settings state) := by
  unfold drawn
  rw [mapBlocks_run, mapBlocks_run]
  rfl

/-- The state after the standard pipeline. -/
def finished (settings : Settings) (state : State) : State :=
  counted (drawn diagnose settings state)

theorem finished_drawn (settings : Settings) (state : State) :
    finished diagnose settings (drawn diagnose settings state) =
      finished diagnose settings state := by
  rw [finished, drawn_drawn, finished]

theorem finished_counted (settings : Settings) (state : State) :
    finished diagnose settings (counted state) = finished diagnose settings state := by
  rw [finished, drawn_counted, counted_counted, finished]

theorem execute_standard (settings : Settings) (state : State) :
    Pipeline.execute (standard diagnose settings) state =
      (finished diagnose settings state, .ok ()) :=
  rfl

end

section Mixed

variable {diagnose : String → String} {settings : Settings} {pipeline : Pipeline}
  (only : ∀ step ∈ pipeline, step = mapBlocks diagnose settings ∨ step = wordCount)

include only

theorem step_succeeds :
    ∀ step ∈ pipeline, ∀ state, (step.run state).2 = .ok () := by
  intro step member state
  rcases only step member with rfl | rfl <;> rfl

/-- A property of states that outlasts drawing and counting outlasts every step. -/
theorem step_preserves (invariant : State → Prop)
    (drawing : ∀ state, invariant state → invariant (drawn diagnose settings state))
    (counting : ∀ state, invariant state → invariant (counted state)) :
    ∀ step ∈ pipeline, ∀ state, invariant state → invariant (step.run state).1 := by
  intro step member state holds
  rcases only step member with rfl | rfl
  · exact drawing state holds
  · exact counting state holds

theorem drawn_execute (draws : mapBlocks diagnose settings ∈ pipeline) (state : State) :
    drawn diagnose settings (Pipeline.execute pipeline state).1 =
      (Pipeline.execute pipeline state).1 := by
  refine Pipeline.execute_establishes (fun current => drawn diagnose settings current = current)
    (step_succeeds only) (step_preserves only _ ?_ ?_) (drawn_drawn diagnose settings) draws state
  · intro current fixed
    exact drawn_drawn diagnose settings current
  · intro current fixed
    rw [drawn_counted, fixed]

theorem counted_execute (counts : wordCount ∈ pipeline) (state : State) :
    counted (Pipeline.execute pipeline state).1 =
      (Pipeline.execute pipeline state).1 := by
  refine Pipeline.execute_establishes (fun current => counted current = current)
    (step_succeeds only) (step_preserves only _ ?_ ?_) counted_counted counts state
  · intro current fixed
    rw [← drawn_counted, fixed]
  · intro current fixed
    exact counted_counted current

/-- No step changes where the standard pipeline would lead. -/
theorem finished_execute (state : State) :
    (Pipeline.execute pipeline state).2 = .ok () ∧
      finished diagnose settings (Pipeline.execute pipeline state).1 =
        finished diagnose settings state := by
  have stays := step_preserves only
    (fun current => finished diagnose settings current = finished diagnose settings state)
    (fun current same => (finished_drawn diagnose settings current).trans same)
    (fun current same => (finished_counted diagnose settings current).trans same)
  refine Pipeline.execute_preserves
    (fun current => finished diagnose settings current = finished diagnose settings state)
    ?_ state rfl
  intro step member current same
  exact ⟨step_succeeds only step member current, stays step member current same⟩

end Mixed

/-- A pipeline of the two transforms that holds both ends like the standard one. -/
theorem execute_eq_execute_standard
    (diagnose : String → String) (settings : Settings) (pipeline : Pipeline)
    (only : ∀ step ∈ pipeline, step = mapBlocks diagnose settings ∨ step = wordCount)
    (draws : mapBlocks diagnose settings ∈ pipeline) (counts : wordCount ∈ pipeline)
    (state : State) :
    Pipeline.execute pipeline state = Pipeline.execute (standard diagnose settings) state ∧
      (Pipeline.execute pipeline state).2 = .ok () := by
  obtain ⟨result, same⟩ := finished_execute only state
  rw [finished, drawn_execute only draws, counted_execute only counts] at same
  rw [execute_standard]
  exact ⟨Prod.ext same result, result⟩

/-- Words first and each transform twice, over a broken block and old metadata. -/
theorem execute_eq_execute_standard_of_words_first :
    let state : State :=
      ⟨⟨"two words", ⟨[.code (some "leaflet") "id: [oops", .text "slot"], none⟩,
        ⟨[(wordCountKey, .null), ("title", .str "Atlas")]⟩⟩, .start none⟩
    let diagnose := fun _ => "while parsing a flow sequence, expected ',' or ']'"
    let pipeline : Pipeline :=
      [wordCount, mapBlocks diagnose .default, wordCount, mapBlocks diagnose .default]
    Pipeline.execute pipeline state = Pipeline.execute (standard diagnose .default) state ∧
      (Pipeline.execute pipeline state).2 = .ok () :=
  execute_eq_execute_standard _ .default _ (by simp) (by simp) (by simp) _

end MapBlocks.Transform

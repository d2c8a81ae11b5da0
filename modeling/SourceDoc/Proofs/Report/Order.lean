import SourceDoc.Files.Tree
import SourceDoc.Report.Run

/-!
# Results in the order of their units

In whatever order workers finish, a run has the result of each unit once (`runAll_perm`), and in the
order of the units if that is asked for or there is one worker only (`runAll_eq_map`).  Each result is
counted as a model or as a reason, and both are listed in the order of the results
(`extractUnits_results`).
-/

namespace SourceDoc

variable {α β : Type}

/-! ### Schedules -/

theorem filterMap_getElem?_range (l : List α) : (List.range l.length).filterMap (l[·]?) = l := by
  induction l with
  | nil => rfl
  | cons a l ih =>
    rw [List.length_cons, List.range_succ_eq_map, List.filterMap_cons_some (List.getElem?_cons_zero),
      List.filterMap_map]
    exact congrArg (a :: ·) ih

/-- **Workers lose no result and give none twice.** -/
theorem runAll_perm (task : α → β) (items : List α) (workers : Int) (preserveOrder : Bool)
    (schedule : Schedule items.length) :
    (runAll task items workers preserveOrder schedule).Perm (items.map task) := by
  rw [runAll]
  split
  · exact .refl _
  · have hperm := schedule.perm.filterMap ((items.map task)[·]?)
    have hrange := filterMap_getElem?_range (items.map task)
    rw [List.length_map] at hrange
    rwa [hrange] at hperm

theorem runAll_eq_map (task : α → β) (items : List α) {workers : Int} {preserveOrder : Bool}
    (schedule : Schedule items.length) (h : preserveOrder = true ∨ workers ≤ 1) :
    runAll task items workers preserveOrder schedule = items.map task := by
  refine if_pos ?_
  rcases h with rfl | hworkers
  · rw [Bool.or_true]
  · rw [decide_eq_true hworkers, Bool.true_or, Bool.true_or]

/-! ### Models and reasons -/

/-- Each result has a model or a reason. -/
theorem Report.length_models_add_length_skips (report : Report) :
    report.models.length + report.skips.length = report.results.length := by
  obtain ⟨results⟩ := report
  induction results with
  | nil => rfl
  | cons result rest ih =>
    obtain ⟨unit, outcome⟩ := result
    change (Report.models ⟨rest⟩).length + (Report.skips ⟨rest⟩).length = rest.length at ih
    rw [List.length_cons, ← ih]
    cases outcome with
    | model model => exact Nat.succ_add _ _
    | skip skip => exact Nat.add_succ _ _

theorem map_some_filterMap (f : α → Option β) (l : List α) :
    (l.filterMap f).map some = (l.filter (f · |>.isSome)).map f := by
  induction l with
  | nil => rfl
  | cons a l ih =>
    cases hf : f a with
    | none => rw [List.filterMap_cons_none hf, ih, List.filter_cons_of_neg (by rw [hf]; nofun)]
    | some b =>
      rw [List.filterMap_cons_some hf, List.map_cons, ih, List.filter_cons_of_pos (by rw [hf]; rfl),
        List.map_cons, hf]

/-! ### Runs -/

theorem results_runReport (workers : Workers) (task : α → UnitResult × LogEntry) (items : List α)
    (maxWorkers : Int) (preserveOrder : Bool) :
    (runReport workers task items maxWorkers preserveOrder).1.results =
      (runAll task items maxWorkers preserveOrder (workers items.length)).map (·.1) :=
  rfl

theorem map_extractUnit (sources : List Loaded) :
    sources.map extractUnit = (sources.map extractLogged).map (·.1) :=
  List.map_map.symm

/-- **A run has the result of each unit once, whatever order its workers finish in.**  Only if neither
the order is kept nor there is a single worker may the results come in another order.  All of them are
counted as models or as reasons, and the models and the reasons are listed in the order of the
results. -/
theorem extractUnits_results {ws : Workspace} {options : RunOptions} {maxWorkers : Int}
    {preserveOrder : Bool} (h : options.effective ws = .ok (maxWorkers, preserveOrder))
    (workers : Workers) (sources : List Loaded) :
    ∃ report log, extractUnits ws workers options sources = .ok (report, log) ∧
      report.results.Perm (sources.map extractUnit) ∧
      (preserveOrder = true ∨ maxWorkers ≤ 1 → report.results = sources.map extractUnit) ∧
      report.models.length + report.skips.length = sources.length ∧
      report.models.map some = (report.results.filter (·.model?.isSome)).map (·.model?) ∧
      report.skips.map some = (report.results.filter (·.skip?.isSome)).map
        fun result => result.skip?.map (result.unit, ·) := by
  obtain ⟨report, log, hreport⟩ : ∃ report log,
      runReport workers extractLogged sources maxWorkers preserveOrder = (report, log) := ⟨_, _, rfl⟩
  have hrun : extractUnits ws workers options sources = .ok (report, log) := by
    rw [extractUnits, h, ← hreport]
    rfl
  have hresults : report.results =
      (runAll extractLogged sources maxWorkers preserveOrder (workers sources.length)).map (·.1) := by
    rw [← results_runReport, hreport]
  have hperm : report.results.Perm (sources.map extractUnit) := by
    rw [hresults, map_extractUnit]
    exact (runAll_perm extractLogged sources maxWorkers preserveOrder _).map _
  refine ⟨report, log, hrun, hperm, fun hkept => ?_, ?_, map_some_filterMap _ _, ?_⟩
  · rw [hresults, map_extractUnit, runAll_eq_map extractLogged sources _ hkept]
  · rw [Report.length_models_add_length_skips, hperm.length_eq, List.length_map]
  · rw [Report.skips, map_some_filterMap]
    simp only [Option.isSome_map]

/-- The schedule in which the last task finishes first. -/
def Schedule.reversed (count : Nat) : Schedule count :=
  ⟨(List.range count).reverse, List.reverse_perm _⟩

/-- The results of two units come the other way round. -/
theorem extractUnits_results_reversed :
    ∃ report log, extractUnits (FileTree.workspace ⟨[]⟩ [] []) Schedule.reversed
        { maxWorkers := some 2, preserveOrder := some false }
        [.unit { path := "A", declarations := [{ kind := .type .classType, name := "A" }] },
          .failure "B" "unreadable"] = .ok (report, log) ∧
      report.results.map (·.unit) = ["B", "A"] ∧
      report.results.Perm ([.unit { path := "A", declarations := [
        { kind := .type .classType, name := "A" }] }, .failure "B" "unreadable"].map extractUnit) ∧
      report.models.length + report.skips.length = 2 := by
  obtain ⟨report, log, hrun, hperm, -, hlength, -, -⟩ := extractUnits_results
    (show RunOptions.effective { maxWorkers := some 2, preserveOrder := some false }
      (FileTree.workspace ⟨[]⟩ [] []) = .ok (2, false) from rfl) Schedule.reversed
    [.unit { path := "A", declarations := [{ kind := .type .classType, name := "A" }] },
      .failure "B" "unreadable"]
  refine ⟨report, log, hrun, ?_, hperm, hlength⟩
  have hreport : _ = report := congrArg Prod.fst (Except.ok.inj hrun)
  rw [← hreport]
  rfl

end SourceDoc

import Coverage.Proofs.Provenance
/-!
Which list of installed products a monitor keeps. Every load replaces the list, and only one that finds a
verdict joins it with that; a load without a verdict keeps the assessment and takes the new list all the
same, so the two belong together only until then.
-/

namespace Coverage

open Scenario (Subject)

/-- The authority cannot be reached, or gives no verdict. -/
def isRefusal : Exchange Request Request.Answer → Bool
  | ⟨.connect, answer⟩ =>
    match answer with
    | .ok _ => false
    | .error _ => true
  | ⟨.verdict _ _, answer⟩ =>
    match answer with
    | .ok (some _) => false
    | .ok none | .error _ => true
  | ⟨.storedVerdict _ _, answer⟩ =>
    match answer with
    | some _ => false
    | none => true
  | _ => false

/-- A load that has come to an end: what it listed as installed, and what it found. -/
structure Report where
  installed : Table ProductId Product
  finding : Finding

def Stage.listing? : Stage → Option (Table ProductId Product)
  | .idle => none
  | .listed installed | .enrolled installed | .identified installed | .connected installed
  | .judged installed _ | .accessed installed _ _ | .certified installed _ _ _
  | .timed installed _ _ _ _ => some installed

def Stage.report? (stage : Stage) (exchange : Exchange Request Request.Answer) : Option Report :=
  match stage.listing?, (stage.next exchange).2 with
  | some installed, some finding => some ⟨installed, finding⟩
  | _, _ => none

def reportsFrom (stage : Stage) : Trace → List Report
  | [] => []
  | exchange :: later =>
    (stage.report? exchange).toList ++ reportsFrom (stage.next exchange).1 later

def reports (trace : Trace) : List Report := reportsFrom .idle trace

theorem listing?_proceed (stage : Stage) (exchange : Exchange Request Request.Answer) :
    (stage.proceed exchange).1 = .idle ∨ (stage.proceed exchange).1.listing? = stage.listing? := by
  unfold Stage.proceed
  split <;> (try split) <;> simp [Stage.listing?]

theorem listing?_next (stage : Stage) {exchange : Exchange Request Request.Answer}
    (other : exchange.request ≠ .installed) :
    (stage.next exchange).1 = .idle ∨ (stage.next exchange).1.listing? = stage.listing? := by
  unfold Stage.next
  split
  · exact absurd rfl other
  · exact .inr rfl
  · exact listing?_proceed stage _

/-- A verdict is joined with what its own load has listed. -/
theorem listing?_of_judged {stage : Stage} {exchange : Exchange Request Request.Answer}
    {verdict : Verdict} {circumstances : Circumstances}
    (ends : (stage.next exchange).2 = some (.judged verdict circumstances)) :
    stage.listing? = some circumstances.installed := by
  unfold Stage.next at ends
  split at ends
  · cases ends
  · cases ends
  · unfold Stage.proceed at ends
    split at ends <;> (try split at ends) <;> cases ends
    rfl

theorem finding_of_report (stage : Stage) (exchange : Exchange Request Request.Answer) :
    (stage.report? exchange).map (·.finding) = (stage.next exchange).2 := by
  unfold Stage.report?
  cases stage with
  | idle =>
      cases h : exchange.request with
      | installed =>
          obtain ⟨request, answer⟩ := exchange
          cases h
          rfl
      | _ =>
          rw [next_idle (by simp [h])]
          rfl
  | _ => cases (Stage.next _ exchange).2 <;> rfl

theorem map_finding_reportsFrom (stage : Stage) (trace : Trace) :
    (reportsFrom stage trace).map (·.finding) = (scan stage trace).2 := by
  induction trace generalizing stage with
  | nil => rfl
  | cons exchange later ih =>
      rw [reportsFrom, List.map_append, ih, scan, ← finding_of_report]
      cases stage.report? exchange <;> rfl

theorem reportsFrom_append (stage : Stage) (first later : Trace) :
    reportsFrom stage (first ++ later) =
      reportsFrom stage first ++ reportsFrom (scan stage first).1 later := by
  induction first generalizing stage with
  | nil => rfl
  | cons exchange rest ih => simp only [List.cons_append, reportsFrom, scan, ih, List.append_assoc]

theorem reports_append {first later : Trace} {found : List Finding} (finds : Finds first found) :
    reports (first ++ later) = reports first ++ reports later := by
  unfold Finds at finds
  rw [reports, reportsFrom_append, finds]
  rfl

theorem reports_of_finds {trace : Trace} (finds : Finds trace []) : reports trace = [] := by
  have none := map_finding_reportsFrom .idle trace
  rw [show scan .idle trace = (.idle, []) from finds] at none
  exact List.map_eq_nil_iff.mp none

theorem installed_of_mem_reportsFrom {stage : Stage} {trace : Trace}
    {installed : Table ProductId Product}
    (listed : stage = .idle ∨ stage.listing? = some installed)
    (other : ∀ exchange ∈ trace, exchange.request ≠ .installed) :
    ∀ report ∈ reportsFrom stage trace, report.installed = installed := by
  induction trace generalizing stage with
  | nil => simp [reportsFrom]
  | cons exchange later ih =>
      rw [List.forall_mem_cons] at other
      rw [reportsFrom, List.forall_mem_append]
      constructor
      · intro report ends
        rw [Option.mem_toList] at ends
        unfold Stage.report? at ends
        split at ends
        · rename_i kept _ same _
          cases ends
          rcases listed with idle | listed
          · rw [idle] at same
            cases same
          · exact Option.some.inj (same.symm.trans listed)
        · cases ends
      · apply ih _ other.2
        rcases listing?_next stage other.1 with idle | same
        · exact .inl idle
        · rcases listed with idle | listed
          · rw [idle, next_idle other.1]
            exact .inl rfl
          · exact .inr (same.trans listed)

theorem installed_of_judged {stage : Stage} {trace : Trace} {verdict : Verdict}
    {circumstances : Circumstances} {report : Report} (member : report ∈ reportsFrom stage trace)
    (judged : report.finding = .judged verdict circumstances) :
    circumstances.installed = report.installed := by
  induction trace generalizing stage with
  | nil => cases member
  | cons exchange later ih =>
      rcases List.mem_append.mp member with ends | member
      · rw [Option.mem_toList] at ends
        unfold Stage.report? at ends
        split at ends
        · rename_i same found
          cases ends
          have listed := listing?_of_judged (found.trans (congrArg some judged))
          exact Option.some.inj (listed.symm.trans same)
        · cases ends
      · exact ih member

namespace Monitor

variable {m : Monitor} {consumer : ConsumerId} {trace : Trace} {progress : Progress Monitor}

theorem LoadsFor.ne_installed (loads : m.LoadsFor consumer trace progress) :
    ∀ exchange ∈ trace, exchange.request ≠ .installed := by
  have fetching {asking : Trace} {verdict : Option Verdict}
      (fetched : m.Fetches consumer asking verdict) :
      ∀ exchange ∈ asking, exchange.request ≠ .installed := by
    cases fetched <;> simp
  cases loads with
  | unreachable failure => simp [noted]
  | noVerdict fetched =>
      simp only [List.cons_append, List.forall_mem_cons, List.forall_mem_append]
      exact ⟨by simp, fetching fetched, by simp [noted]⟩
  | judged fetched accessed judged =>
      simp only [List.cons_append, List.forall_mem_cons, List.forall_mem_append]
      refine ⟨by simp, ⟨fetching fetched, ?_⟩, by simp, by simp, by simp, by simp [noted]⟩
      cases accessed <;> simp

theorem Loads.lists (loads : m.Loads trace progress) :
    ∃ rest, trace = ⟨.installed, progress.state.installed⟩ :: rest ∧
      ∀ exchange ∈ rest, exchange.request ≠ .installed := by
  cases loads with
  | unregistered installed => exact ⟨_, rfl, by simp [noted]⟩
  | noConsumer installed => exact ⟨_, rfl, by simp [noted]⟩
  | @identified installed consumer rest progress loads =>
      have kept : progress.state.installed = installed := by
        cases loads with
        | unreachable failure => rfl
        | noVerdict fetched => rfl
        | judged fetched accessed judged => cases judged <;> rfl
      rw [kept]
      refine ⟨_, rfl, ?_⟩
      simp only [List.forall_mem_cons]
      exact ⟨by simp, by simp, loads.ne_installed⟩

theorem Loads.reports (loads : m.Loads trace progress) :
    ∃ report, reports trace = [report] ∧ report.installed = progress.state.installed := by
  obtain ⟨finding, finds, -⟩ := loads.finds
  have found : (Coverage.reports trace).map (·.finding) = [finding] := by
    rw [Coverage.reports, map_finding_reportsFrom]
    exact congrArg Prod.snd finds
  obtain ⟨report, same, -⟩ := List.map_eq_singleton_iff.mp found
  refine ⟨report, same, ?_⟩
  obtain ⟨rest, begins, other⟩ := loads.lists
  have member : report ∈ reportsFrom (.listed progress.state.installed) rest := by
    have head : report ∈ Coverage.reports trace := by rw [same]; exact .head _
    rw [begins] at head
    exact head
  exact installed_of_mem_reportsFrom (.inr rfl) other report member

theorem Loads.of_refusal (loads : m.Loads trace progress) (refused : trace.any isRefusal = true) :
    progress = .finished { m with installed := progress.state.installed } := by
  have silent (notices : List Notice) : (noted notices).any isRefusal = false := by
    simp [noted, isRefusal]
  cases loads with
  | unregistered installed => cases refused
  | noConsumer installed => cases refused
  | identified loads =>
      cases loads with
      | unreachable failure => rfl
      | noVerdict fetched => rfl
      | judged fetched accessed judged =>
          -- a verdict was given, so nothing in the load is a refusal
          cases fetched <;> cases accessed <;>
            simp [isRefusal, silent] at refused

end Monitor

/-- Where the authority refuses, a load takes the new list and keeps all else. -/
theorem Monitor.outcome_of_refusal (m : Monitor) {answers : (r : Request) → r.Answer}
    {consumer : ConsumerId} (registered : answers .registered = true)
    (known : answers .consumer = some consumer)
    (refused : (∃ failure, answers .connect = .error failure) ∨
      Monitor.answered answers m.settings consumer m.source = none) :
    m.load.outcome answers = .finished { m with installed := answers .installed } := by
  rw [outcome_load, finding_eq_noVerdict registered known refused]
  rfl

def latestInstalled (before : Table ProductId Product) (reports : List Report) :
    Table ProductId Product :=
  (reports.getLast?.map (·.installed)).getD before

theorem latestInstalled_concat (before : Table ProductId Product) (earlier : List Report)
    (report : Report) : latestInstalled before (earlier ++ [report]) = report.installed := by
  simp [latestInstalled]

theorem latestInstalled_append (before : Table ProductId Product) (first later : List Report) :
    latestInstalled before (first ++ later) = latestInstalled (latestInstalled before first) later := by
  unfold latestInstalled
  rw [List.getLast?_append]
  cases later.getLast? <;> rfl

theorem Reloads.installed {m : Monitor} {trace : Trace} {progress : Progress Monitor}
    (reloads : Reloads m trace progress) :
    progress.state.installed = latestInstalled m.installed (reports trace) := by
  induction reloads with
  | idle finds =>
      rw [reports_of_finds finds]
      rfl
  | load loads =>
      obtain ⟨report, same, listed⟩ := loads.reports
      rw [same, ← listed]
      rfl
  | append before after ihBefore ihAfter =>
      obtain ⟨found, finds, -⟩ := before.derives
      rw [ihAfter, reports_append finds, latestInstalled_append, ← ihBefore]
      rfl

theorem map_finding_reports (trace : Trace) : (reports trace).map (·.finding) = findings trace :=
  map_finding_reportsFrom .idle trace

theorem Run.reports_ne_nil {trace : Trace} {progress : Progress Subject} (run : Run trace progress) :
    reports trace ≠ [] := by
  intro none
  apply run.findings_ne_nil
  rw [← map_finding_reports, none]
  rfl

/-- The list that is kept is that of the latest load. -/
theorem Run.installed {trace : Trace} {s : Subject} (run : Run trace (.finished s)) :
    ∃ earlier report, reports trace = earlier ++ [report] ∧
      s.monitorOf.installed = report.installed := by
  obtain ⟨settings, source, reloads⟩ := run.reloads
  have kept : s.monitorOf.installed = latestInstalled .empty (reports trace) := reloads.installed
  rcases List.eq_nil_or_concat (reports trace) with none | ⟨earlier, report, same⟩
  · exact absurd none run.reports_ne_nil
  · rw [List.concat_eq_append] at same
    refine ⟨earlier, report, same, ?_⟩
    rw [kept, same, latestInstalled_concat]

theorem revise_noVerdicts {found : List Finding} (without : ∀ finding ∈ found, finding = .noVerdict)
    (view : Assessment) : found.foldlM Finding.revise view = some view := by
  induction found with
  | nil => rfl
  | cons finding later ih =>
      rw [List.forall_mem_cons] at without
      rw [List.foldlM_cons, without.1]
      exact ih without.2

/-- After loads without a verdict the assessment is still that of the last verdict before them. -/
theorem assessed_of_last_judged {before after : List Finding} {view result : Assessment}
    {verdict : Verdict} {circumstances : Circumstances}
    (without : ∀ finding ∈ after, finding = .noVerdict)
    (folded : (before ++ .judged verdict circumstances :: after).foldlM Finding.revise view =
      some result) :
    Assessment.assess? verdict circumstances = some result := by
  rw [List.foldlM_append] at folded
  obtain ⟨earlier, -, folded⟩ := Option.bind_eq_some_iff.mp folded
  rw [List.foldlM_cons] at folded
  obtain ⟨assessed, revised, folded⟩ := Option.bind_eq_some_iff.mp folded
  rw [revise_noVerdicts without] at folded
  exact revised.trans folded

/-- A load that the authority refuses keeps everything but the list of installed products. So the list
that is kept is always that of the latest load, while an assessment that was made from a verdict was made
with the list of the load that found the verdict; the two are the same if no load came after that. -/
theorem run_inventory {trace : Trace} {s : Subject} (run : Run trace (.finished s)) :
    (∀ later progress, s.monitorOf.load.Yields later progress → later.any isRefusal = true →
      ∃ installed, later.head? = some ⟨.installed, installed⟩ ∧
        progress = .finished { s.monitorOf with installed }) ∧
      (∀ (answers : (r : Request) → r.Answer) consumer, answers .registered = true →
        answers .consumer = some consumer →
        ((∃ failure, answers .connect = .error failure) ∨
          Monitor.answered answers s.monitorOf.settings consumer s.monitorOf.source = none) →
        s.monitorOf.load.outcome answers =
          .finished { s.monitorOf with installed := answers .installed }) ∧
      (∃ earlier report, reports trace = earlier ++ [report] ∧
        s.monitorOf.installed = report.installed) ∧
      ∀ before report after verdict circumstances, reports trace = before ++ report :: after →
        report.finding = .judged verdict circumstances →
        (∀ later ∈ after, later.finding = .noVerdict) →
        Assessment.assess? verdict circumstances = some s.monitorOf.view ∧
          circumstances.installed = report.installed ∧
          (after = [] → s.monitorOf.installed = circumstances.installed) := by
  refine ⟨?_, ?_, run.installed, ?_⟩
  · intro later progress loaded refused
    have loads := Monitor.yields_load.mp loaded
    obtain ⟨rest, begins, -⟩ := loads.lists
    exact ⟨_, by rw [begins]; rfl, loads.of_refusal refused⟩
  · intro answers consumer registered known refused
    exact s.monitorOf.outcome_of_refusal registered known refused
  · intro before report after verdict circumstances split judged without
    have member : report ∈ reports trace := by
      rw [split]
      exact List.mem_append_right before (.head _)
    have joined := installed_of_judged member judged
    refine ⟨?_, joined, ?_⟩
    · have folded := run.derives.findings
      rw [← map_finding_reports, split, List.map_append, List.map_cons, judged] at folded
      apply assessed_of_last_judged _ folded
      intro finding found
      obtain ⟨later, listed, same⟩ := List.mem_map.mp found
      rw [← same]
      exact without later listed
    · intro last
      obtain ⟨earlier, latest, same, kept⟩ := run.installed
      rw [split, last] at same
      have latestReport : report = latest := (List.append_inj_right' same rfl) |> List.cons.inj |>.1
      rw [kept, ← latestReport, joined]

def refusingWorld : Scenario.World :=
  { coveredWorld with
    installed := .ofList [(⟨"covered"⟩, .ofId ⟨"covered"⟩), (⟨"added"⟩, .ofId ⟨"added"⟩)]
    connectError := some (.network "unreachable") }

def relistedMonitor : Monitor := (coveredMonitor.load.run Scenario.World.answer refusingWorld).1.state

def relistingTrace : Trace :=
  (Monitor.start {} .authority).record Scenario.World.answer coveredWorld ++
    coveredMonitor.load.record Scenario.World.answer refusingWorld

theorem run_relisting : Run relistingTrace (.finished (.monitor relistedMonitor)) :=
  .step (.monitor (Program.yields_record Scenario.World.answer _ coveredWorld))
    (.loadMonitor (Program.yields_record Scenario.World.answer coveredMonitor.load refusingWorld))

/-- A load without a verdict changes the list that is kept beside the assessment, which was made with
another one. -/
theorem refused_load_relists :
    Run relistingTrace (.finished (.monitor relistedMonitor)) ∧
      (coveredMonitor.load.record Scenario.World.answer refusingWorld).any isRefusal = true ∧
      relistedMonitor.view = coveredMonitor.view ∧
      relistedMonitor.installed ≠ coveredMonitor.installed ∧
      ∃ verdict circumstances, findings relistingTrace = [.judged verdict circumstances, .noVerdict] ∧
        Assessment.assess? verdict circumstances = some relistedMonitor.view ∧
        relistedMonitor.installed ≠ circumstances.installed := by
  exact ⟨run_relisting, rfl, rfl, by decide +kernel, _, _, rfl, rfl, by decide +kernel⟩

def refusingAnswers (r : Request) : r.Answer := (Scenario.World.answer r refusingWorld).1

theorem run_inventory_relisted :
    Run relistingTrace (.finished (.monitor relistedMonitor)) ∧
      relistedMonitor.load.outcome refusingAnswers =
        .finished { relistedMonitor with installed := refusingWorld.installed } ∧
      (∃ installed, relistedMonitor.load.Yields
          (relistedMonitor.load.record Scenario.World.answer refusingWorld)
          (.finished { relistedMonitor with installed })) ∧
      ∃ verdict circumstances, findings relistingTrace = [.judged verdict circumstances, .noVerdict] ∧
        Assessment.assess? verdict circumstances = some relistedMonitor.view ∧
        circumstances.installed = coveredWorld.installed := by
  obtain ⟨refused, answered, -, joined⟩ := run_inventory run_relisting
  have again := Program.yields_record Scenario.World.answer relistedMonitor.load refusingWorld
  obtain ⟨installed, -, kept⟩ := refused _ _ again rfl
  rw [kept] at again
  obtain ⟨assessed, same, -⟩ := joined [] _ [_] _ _ rfl rfl (by simp)
  have unreached := answered refusingAnswers ⟨1⟩ rfl rfl (.inl ⟨.network "unreachable", rfl⟩)
  exact ⟨run_relisting, unreached, ⟨installed, again⟩, _, _, rfl, assessed, same⟩

end Coverage

import Gbc.Platform.Controller

/-!
# Reports of success

A handler reports by the alert that it calls `present` with. An alert reports success
truly when all writes of its press have been acknowledged, the last one included. A handler
body that presents such an alert and starts a write reports too early, whatever becomes of
the write.
-/

namespace Gbc

open Callback World

variable {rules : URLRules} {app : App (remote rules)} {service : Service (remote rules)}

/-- An operation that changes what is stored. -/
def Request.isWrite : Request rules → Bool
  | .addDocument _ _ => true
  | .setData _ _ _ _ => true
  | .delete _ _ => true
  | .putData _ _ => true
  | .createUser _ _ => true
  | _ => false

/-- An operation that was answered without an error. -/
def succeeded (exchange : Exchange (remote rules)) : Bool :=
  match exchange with
  | ⟨.addDocument _ _, (ref : Option String)⟩ => ref.isSome
  | ⟨.setData _ _ _ _, (written : Bool)⟩ => written
  | ⟨.delete _ _, (deleted : Bool)⟩ => deleted
  | ⟨.putData _ _, (uploaded : Bool)⟩ => uploaded
  | ⟨.createUser _ _, (result : Except AuthErrorCode User)⟩ => result.toOption.isSome
  | _ => true

/-- The success alerts of the flows. -/
def successTitles : List String :=
  ["Upload Sucessfull", "Update Sucessful", "Delete Sucessfull", "Sign Up Sucessfull!"]

/-- All writes of a press have been acknowledged without an error, also the one that
completes what the press asked for. -/
structure WritesDone (completes : app.Input → Request rules → Bool)
    (world : World app service) (press : Entry app) : Prop where
  settled : ∀ pending ∈ world.pending, pending.past.entry = press →
    pending.request.isWrite = false
  succeeded : ∀ handled ∈ world.acknowledged, handled.1.entry = press →
    handled.2.request.isWrite = true → succeeded handled.2 = true
  completed : ∃ handled ∈ world.acknowledged, handled.1.entry = press ∧
    completes press.input handled.2.request = true

/-- The success alerts that a step has presented are true by then. -/
def ReportsTruly (completes : app.Input → Request rules → Bool) (world next : World app service) :
    Prop :=
  ∀ alert ∈ newAlerts world next, alert.2 ∈ successTitles →
    WritesDone completes next alert.1.entry

section Steps

variable {completes : app.Input → Request rules → Bool} {world next : World app service}
  {past : Past app} {code : Code (remote rules) app.Object app.Fault} {object : app.Object}

/-- A step without a success alert reports nothing. -/
theorem reportsTruly_of_quiet (alerts : next.alerts =
      (code.titles object).reverse.map (past, ·) ++ world.alerts)
    (quiet : ∀ title ∈ code.titles object, title ∉ successTitles) :
    ReportsTruly completes world next := by
  intro alert member success
  rw [newAlerts_of_append alerts] at member
  obtain ⟨title, shown, rfl⟩ := List.mem_map.mp member
  exact absurd success (quiet title (List.mem_reverse.mp shown))

/-- A success alert of a step is a report about its press. -/
theorem WritesDone.of_reportsTruly (alerts : next.alerts =
      (code.titles object).reverse.map (past, ·) ++ world.alerts)
    (reports : ReportsTruly completes world next) {title : String}
    (shown : title ∈ code.titles object) (success : title ∈ successTitles) :
    WritesDone completes next past.entry := by
  refine reports (past, title) ?_ success
  rw [newAlerts_of_append alerts]
  exact List.mem_map.mpr ⟨title, List.mem_reverse.mpr shown, rfl⟩

/-- A body that shows a success alert and starts a write reports too early. -/
theorem not_reportsTruly_of_write {self : Nat} {target : Instance app} {before : World app service}
    (reports : ReportsTruly completes world (exec self past code target before))
    (alerts : before.alerts = world.alerts) {title : String}
    (shown : title ∈ code.titles target.object) (success : title ∈ successTitles)
    {request : Request rules} (started : request ∈ code.requests target.object)
    (write : request.isWrite = true) : False := by
  have shows : (exec self past code target before).alerts =
      (code.titles target.object).reverse.map (past, ·) ++ world.alerts := by
    rw [exec_alerts, alerts]
  obtain ⟨pending, member, same, rfl⟩ := exec_requests started
  have settled := (WritesDone.of_reportsTruly shows reports shown success).settled pending member
  rw [same, write] at settled
  cases settled rfl

end Steps

/-- Which answers make a completion handler show a success alert, and what it does then. -/
structure Reporter (rules : URLRules) (Screen : Type) where
  reports : (request : Request rules) → request.Response → Bool
  effect : Handling rules Screen → Screen → Prop

variable {Screen : Type} {reporter : Reporter rules Screen}

/-- The completion handler of an operation shows a success alert for these answers, with
this effect, and for no others. -/
def Reporter.Reporting (reporter : Reporter rules Screen) (request : Request rules)
    (completion : request.Response → Handling rules Screen) : Prop :=
  ∀ response screen,
    (reporter.reports request response = false →
      ∀ title ∈ (completion response).titles screen, title ∉ successTitles) ∧
    (reporter.reports request response = true →
      (∃ title ∈ (completion response).titles screen, title ∈ successTitles) ∧
        reporter.effect (completion response) screen)

/-- A handler body that shows no success alert itself, and later only for the answers of
the reporter. -/
structure Reporter.Quiet (reporter : Reporter rules Screen) (code : Handling rules Screen) :
    Prop where
  calls : ∀ screen, code.Calls reporter.Reporting screen
  avoids : code.Avoids successTitles

namespace Reporter

open Handler

variable {next : Handling rules Screen}

/-- An operation whose completion handler shows no success alert. -/
theorem reporting_of_avoids {request : Request rules}
    {completion : request.Response → Handling rules Screen}
    (silent : ∀ response, reporter.reports request response = false)
    (avoids : ∀ response, (completion response).Avoids successTitles) :
    reporter.Reporting request completion := by
  intro response screen
  refine ⟨fun _ => avoids response screen, fun reported => ?_⟩
  rw [silent] at reported
  cases reported

theorem quiet_done : reporter.Quiet .done := ⟨fun _ => trivial, Code.avoids_done⟩

theorem quiet_alert {title : String} (other : title ∉ successTitles)
    (rest : reporter.Quiet next) : reporter.Quiet (.alert title next) :=
  ⟨rest.calls, Code.avoids_alert other rest.avoids⟩

theorem quiet_unwrap {Value : Type} {value : Option Value} {fault : Fault}
    {next : Value → Handling rules Screen} (rest : ∀ found, reporter.Quiet (next found)) :
    reporter.Quiet (.unwrap value fault next) :=
  ⟨fun screen => Code.calls_unwrap fun found _ => (rest found).calls screen,
    Code.avoids_unwrap fun found => (rest found).avoids⟩

theorem quiet_this {Self : Type} [Controller Screen Self] {next : Self → Handling rules Screen}
    (rest : ∀ self, reporter.Quiet (next self)) : reporter.Quiet (this next) :=
  ⟨fun screen => calls_this fun self _ => (rest self).calls screen,
    avoids_this fun self => (rest self).avoids⟩

theorem quiet_assign {Self : Type} [Controller Screen Self] {change : Self → Self}
    (rest : reporter.Quiet next) : reporter.Quiet (assign change next) :=
  ⟨fun _ => rest.calls _, fun _ => rest.avoids _⟩

theorem quiet_document {path : String} (rest : reporter.Quiet next) :
    reporter.Quiet (document path next) :=
  ⟨fun screen => calls_document (rest.calls screen), avoids_document rest.avoids⟩

/-- An operation whose completion handlers are quiet. -/
theorem quiet_call {request : Request rules}
    {completion : request.Response → Handling rules Screen}
    (silent : ∀ response, reporter.reports request response = false)
    (later : ∀ response, reporter.Quiet (completion response)) (rest : reporter.Quiet next) :
    reporter.Quiet (.call request completion next) :=
  ⟨fun screen => ⟨reporting_of_avoids silent fun response => (later response).avoids,
    fun response => (later response).calls, rest.calls screen⟩, rest.avoids⟩

theorem quiet_present {created : Screen} {start : Handling rules Screen}
    (rest : reporter.Quiet start) : reporter.Quiet (.present created start) :=
  ⟨fun _ => rest.calls created, fun _ => rest.avoids _⟩

end Reporter

end Gbc

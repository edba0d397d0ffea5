import Conform.Session.Recorders

/-!
Journals. A journal says what recorders record, from the calls alone: for each recorder it keeps what was taken down,
with the paths under which it was taken down, and for all of them together the steps that are open. It knows nothing
of numbers, and of who shares what with whom. Calls only ever add to a log (`Journals.of_append`).
-/

namespace Conform

/-! ### Journals -/

/-- A violation that was taken down: as it was seen by the one who found it, and the paths under which it was taken
down since, the last one first. -/
structure Finding where
  trail : List Path
  own : Violation

namespace Finding

/-- The violation with the paths of its trail before its own, the outermost first. -/
def violation (f : Finding) : Violation := f.own.under f.trail.flatten

/-- A finding that is taken down under one path more. -/
def within (p : Path) (f : Finding) : Finding := { f with trail := p :: f.trail }

theorem violation_within (p : Path) (f : Finding) : (f.within p).violation = f.violation.under p := by
  simp [violation, within, Violation.under_under]

end Finding

/-- The violations that are in a value: those of a report, or else its items, which have to be violations. -/
def Violation.listed? (v : Value) : Option (List Violation) :=
  match Report.ofObject? v with
  | some r => some r.violations
  | none => match v.iterate with
    | .ok items => items.mapM Violation.ofObject?
    | .error _ => none

/-- What is known of some recorders: the steps that are open, the latest first, each with the place of the recorder
that took it; what each recorder took down, in order; and for each report, if it failed, the place of the recorder
whose violations it shows. -/
structure Journals where
  entered : List (Nat × Segment)
  logs : List (List Finding)
  reports : List (Option Nat)

namespace Journals

def start : Journals := ⟨[], [], []⟩

/-- The steps of a recorder that are open, in the order in which they were taken. -/
def path (j : Journals) (k : Nat) : Path := ((j.entered.filter fun b => b.1 == k).map Prod.snd).reverse

/-- The recorder that a journal tells of. -/
def recorder? (j : Journals) (k : Nat) : Option Recorder :=
  j.logs[k]?.map fun log => ⟨log.map Finding.violation, j.path k⟩

/-- A recorder takes some findings down where it stands. -/
def note (j : Journals) (k : Nat) (findings : List Finding) : Option Journals :=
  j.logs[k]?.map fun log => { j with logs := j.logs.set k (log ++ findings.map (Finding.within (j.path k))) }

/-- What a recorder may take in from a source: nothing of its own. -/
def found (j : Journals) (k : Nat) : Source → Option (List Finding)
  | .report i => j.reports[i]?.bind fun owner => match owner with
    | none => some []
    | some l => if l = k then none else j.logs[l]?
  | .recorder l => if l = k then none else j.logs[l]?
  | .value v => (Violation.listed? v).map fun vs => vs.map fun v => ⟨[], v⟩

/-- What a call adds to the journals, if it is one that is allowed: recorders and reports are there, a step is left
that is open, and no recorder takes in its own violations. -/
def turn (j : Journals) : RecorderCall → Option Journals
  | .make => some { j with logs := j.logs ++ [[]] }
  | .enter k step => j.logs[k]?.map fun _ => { j with entered := (k, step) :: j.entered }
  | .leave _ => match j.entered with
    | [] => none
    | _ :: rest => some { j with entered := rest }
  | .report k kind details => j.note k [⟨[], .report kind details []⟩]
  | .adopt k source => (j.found k source).bind (j.note k)
  | .build k _ => j.logs[k]?.map fun log => { j with reports := j.reports ++ [if log.isEmpty then none else some k] }

/-- The journals of calls, if all of them are allowed. -/
def of (calls : List RecorderCall) : Option Journals := calls.foldlM turn start

end Journals

/-! ### What calls do to what is told -/

namespace Journals
variable {j j' : Journals} {k l : Nat} {step : Segment} {rest : List (Nat × Segment)} {findings : List Finding}
  {r : Recorder}

theorem recorder?_of_log {log : List Finding} (hlog : j.logs[k]? = some log) :
    j.recorder? k = some ⟨log.map Finding.violation, j.path k⟩ := by
  rw [recorder?, hlog]
  rfl

theorem path_enter (j : Journals) (k : Nat) (step : Segment) :
    { j with entered := (k, step) :: j.entered }.path k = j.path k ++ [step] := by
  simp [path]

theorem path_enter_other (j : Journals) (other : l ≠ k) (step : Segment) :
    { j with entered := (k, step) :: j.entered }.path l = j.path l := by
  simp [path, Ne.symm other]

/-- A step that was taken is open, the last of its recorder. -/
theorem recorder?_enter (hr : j.recorder? k = some r) (step : Segment) :
    { j with entered := (k, step) :: j.entered }.recorder? k = some (r.enter step) := by
  obtain ⟨log, hlog, rfl⟩ := Option.map_eq_some_iff.mp hr
  rw [recorder?, hlog, Option.map_some, path_enter]
  rfl

theorem recorder?_enter_other (j : Journals) (other : l ≠ k) (step : Segment) :
    { j with entered := (k, step) :: j.entered }.recorder? l = j.recorder? l := by
  rw [recorder?, path_enter_other j other, recorder?]

/-- A step that was left is open no longer. -/
theorem recorder?_leave (entered : j.entered = (k, step) :: rest) (hr : j.recorder? k = some r) :
    { j with entered := rest }.recorder? k = some r.leave := by
  obtain ⟨log, hlog, rfl⟩ := Option.map_eq_some_iff.mp hr
  have path : j.path k = { j with entered := rest }.path k ++ [step] := by
    rw [← path_enter, ← entered]
  rw [recorder?, hlog, Option.map_some, path, Recorder.leave, List.dropLast_concat]

theorem recorder?_leave_other (entered : j.entered = (k, step) :: rest) (other : l ≠ k) :
    { j with entered := rest }.recorder? l = j.recorder? l := by
  rw [← recorder?_enter_other { j with entered := rest } other step, ← entered]

/-- What a recorder takes down stands behind what it took down before, each finding under the path of the recorder. -/
theorem recorder?_note (noted : j.note k findings = some j') (hr : j.recorder? k = some r) :
    j'.recorder? k = some (r.adopt (findings.map Finding.violation)) := by
  obtain ⟨log, hlog, rfl⟩ := Option.map_eq_some_iff.mp hr
  rw [note, hlog] at noted
  cases noted
  obtain ⟨within, -⟩ := List.getElem?_eq_some_iff.mp hlog
  rw [recorder?, List.getElem?_set_self within, Option.map_some, List.map_append, List.map_map]
  simp only [Recorder.adopt, List.map_map, Function.comp_def, Finding.violation_within]
  rfl

theorem recorder?_note_other (noted : j.note k findings = some j') (other : l ≠ k) : j'.recorder? l = j.recorder? l := by
  obtain ⟨log, -, rfl⟩ := Option.map_eq_some_iff.mp noted
  rw [recorder?, List.getElem?_set_ne other.symm]
  rfl

end Journals

/-! ### Growing -/

theorem getElem?_append_some {α : Type} {xs : List α} {k : Nat} {x : α} (hk : xs[k]? = some x) (ys : List α) :
    (xs ++ ys)[k]? = some x := by
  obtain ⟨within, -⟩ := List.getElem?_eq_some_iff.mp hk
  rw [List.getElem?_append_left within, hk]

namespace Journals
variable {j j' : Journals}

/-- Journals grow into others: every log of theirs is the first part of what it is there. -/
def Grows (j j' : Journals) : Prop :=
  ∀ (k : Nat) (log : List Finding), j.logs[k]? = some log → ∃ log', j'.logs[k]? = some log' ∧ log <+: log'

theorem Grows.of_logs (same : j'.logs = j.logs) : j.Grows j' :=
  fun _ log hlog => ⟨log, by rw [same, hlog], List.prefix_rfl⟩

theorem Grows.trans {j'' : Journals} (first : j.Grows j') (next : j'.Grows j'') : j.Grows j'' := by
  intro k log hlog
  obtain ⟨log', hlog', grown⟩ := first k log hlog
  obtain ⟨log'', hlog'', grown'⟩ := next k log' hlog'
  exact ⟨log'', hlog'', grown.trans grown'⟩

theorem grows_note {l : Nat} {findings : List Finding} (noted : j.note l findings = some j') : j.Grows j' := by
  intro k log hlog
  obtain ⟨log', hlog', rfl⟩ := Option.map_eq_some_iff.mp noted
  by_cases same : l = k
  · subst same
    cases hlog.symm.trans hlog'
    obtain ⟨within, -⟩ := List.getElem?_eq_some_iff.mp hlog
    exact ⟨_, List.getElem?_set_self within, List.prefix_append ..⟩
  · exact ⟨log, (List.getElem?_set_ne same).trans hlog, List.prefix_rfl⟩

/-- A call takes nothing out of a log, and puts what it adds behind. -/
theorem grows_turn {c : RecorderCall} (turned : j.turn c = some j') : j.Grows j' := by
  cases c with
  | make =>
    cases turned
    exact fun _ log hlog => ⟨log, getElem?_append_some hlog _, List.prefix_rfl⟩
  | enter l segment =>
    obtain ⟨_, -, rfl⟩ := Option.map_eq_some_iff.mp turned
    exact .of_logs rfl
  | leave raised =>
    rw [turn] at turned
    split at turned <;> cases turned
    exact .of_logs rfl
  | report l kind details => exact grows_note turned
  | adopt l source =>
    obtain ⟨findings, -, turned⟩ := Option.bind_eq_some_iff.mp turned
    exact grows_note turned
  | build l value =>
    obtain ⟨_, -, rfl⟩ := Option.map_eq_some_iff.mp turned
    exact .of_logs rfl

theorem grows_turns (calls : List RecorderCall) : ∀ {j : Journals}, calls.foldlM turn j = some j' → j.Grows j' := by
  induction calls with
  | nil =>
    intro j told
    cases told
    exact .of_logs rfl
  | cons c calls ih =>
    intro j told
    rw [List.foldlM_cons] at told
    obtain ⟨j₁, turned, told⟩ := Option.bind_eq_some_iff.mp told
    exact (grows_turn turned).trans (ih told)

/-- The first of some allowed calls are allowed, and what they take down stays in front. -/
theorem of_append {earlier later : List RecorderCall} (told : of (earlier ++ later) = some j) :
    ∃ before, of earlier = some before ∧ before.Grows j := by
  rw [of, List.foldlM_append] at told
  obtain ⟨before, first, told⟩ := Option.bind_eq_some_iff.mp told
  exact ⟨before, first, grows_turns later told⟩

end Journals

end Conform

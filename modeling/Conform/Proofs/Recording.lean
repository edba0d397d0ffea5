import Conform.Proofs.Journals
import Conform.Proofs.Ledger
import Mathlib.Data.List.Forall2
import Mathlib.Data.List.Nodup

/-!
What recorders record. A session keeps a recorder under one number and its violations under another, which reports of
the recorder share. `Tallies` says of a program that its recorders and reports are as journals tell; every call that
is allowed keeps that (`Tallies.step`), so a program of such calls does what its journals tell
(`RecorderCall.run_journals`).
-/

namespace Conform

/-! ### Reading objects back -/

theorem Segment.ofObject?_toObject (s : Segment) : Segment.ofObject? s.toObject = some s := by
  obtain ⟨kind, value⟩ := s
  have named : (SegmentKind.toObject kind).asText? = some kind.name := rfl
  cases kind <;>
    simp [Segment.ofObject?, Segment.toObject, Object.shown, Value.isOf, Value.part, Value.attribute?, named,
      SegmentKind.all, SegmentKind.name, List.lookup_cons]

theorem Path.segments_toObject (p : Path) : (Path.toObject p).items.filterMap Segment.ofObject? = p := by
  change (p.map Segment.toObject).filterMap Segment.ofObject? = p
  induction p with
  | nil => rfl
  | cons s p ih => rw [List.map_cons, List.filterMap_cons, Segment.ofObject?_toObject, ih]

theorem Violation.ofObject?_toObject (v : Violation) : Violation.ofObject? v.toObject = some v := by
  obtain ⟨kind, details, path⟩ := v
  simp [Violation.ofObject?, Violation.toObject, Object.shown, Value.isOf, Value.part, Value.attribute?, Value.asText?,
    Value.entries, Value.entries?, List.lookup_cons, Path.segments_toObject]

theorem Violation.filterMap_ofObject? (vs : List Violation) :
    (vs.map Violation.toObject).filterMap Violation.ofObject? = vs := by
  induction vs with
  | nil => rfl
  | cons v vs ih => rw [List.map_cons, List.filterMap_cons, Violation.ofObject?_toObject, ih]

theorem Violation.mapM_ofObject? (vs : List Violation) :
    (vs.map Violation.toObject).mapM Violation.ofObject? = some vs := by
  induction vs with
  | nil => rfl
  | cons v vs ih => simp [Violation.ofObject?_toObject, ih]

/-! ### What recorders do in a session -/

namespace Session
variable {s : Session} {n e x : Nat} {r : Recorder} {valid : Bool} {value : Value}

/-- A recorder with the number of its violations. -/
structure Records (s : Session) (n e : Nat) (r : Recorder) : Prop where
  recorder : s.objects.lookup n = some (.recorder e r.path)
  violations : s.objects.lookup e = some (.violations r.violations)

/-- The session after a recorder was changed. -/
def recorded (s : Session) (n e : Nat) (r : Recorder) : Session :=
  (s.withObject e (.violations r.violations)).withObject n (.recorder e r.path)

theorem Records.recorder_eq (records : s.Records n e r) : s.recorder n = (e, r) := by
  rw [Session.recorder, records.recorder]
  simp only [Session.violations, records.violations]

theorem Records.apart (records : s.Records n e r) : n ≠ e := by
  rintro rfl
  cases records.recorder.symm.trans records.violations

theorem lookup_recorded_other (hn : x ≠ n) (he : x ≠ e) : (s.recorded n e r).objects.lookup x = s.objects.lookup x := by
  rw [recorded, withObject, lookup_assign_other hn, withObject, lookup_assign_other he]

theorem Records.recorded (records : s.Records n e r) (r' : Recorder) : (s.recorded n e r').Records n e r' where
  recorder := lookup_assign_self ..
  violations := by
    rw [Session.recorded, withObject, lookup_assign_other records.apart.symm]
    exact lookup_assign_self ..

theorem violationsValue_listed (s : Session) (e : Nat) :
    Violation.listed? (s.violationsValue e) = some (s.violations e) := by
  have none : Report.ofObject? (s.violationsValue e) = none := rfl
  have items : (s.violationsValue e).iterate = .ok ((s.violations e).map Violation.toObject) := by
    simp [violationsValue, Violation.listObject, Value.numbered, Value.iterate, Value.iterate?, Value.elements?]
  rw [Violation.listed?, none]
  simp only [items, Violation.mapM_ofObject?]

/-- A report that stands in a session reads as what it shows now. -/
theorem report_toValue (found : s.objects.lookup x = some (.report valid value e)) :
    Report.ofObject? (s.toValue x) = some ⟨valid, value, s.violations e⟩ := by
  have errors : (s.violationsValue e).items.filterMap Violation.ofObject? = s.violations e := by
    have items : (s.violationsValue e).items = (s.violations e).map Violation.toObject := by
      simp [violationsValue, Violation.listObject, Value.numbered, Value.items, Value.iterate?, Value.elements?]
    rw [items, Violation.filterMap_ofObject?]
  simp [toValue, found, Object.shown, Value.numbered, Report.ofObject?, Value.isOf, Value.part, Value.attribute?,
    List.lookup_cons, errors, Value.truthy]

end Session

namespace Action
variable {s : Session} {n e : Nat} {r : Recorder}

theorem runWith_record (records : s.Records n e r) (change : Recorder → Recorder) :
    (record n change).runWith s = (.ok ((s.recorded n e (change r)).toValue n), s.recorded n e (change r)) := by
  unfold record
  rw [runWith_get_bind, records.recorder_eq]
  rfl

theorem takes_items {items : List Value} {vs : List Violation} (read : items.mapM Violation.ofObject? = some vs) :
    items.takeWhile (fun v => (Violation.ofObject? v).isSome) = items ∧ items.filterMap Violation.ofObject? = vs ∧
      items.dropWhile (fun v => (Violation.ofObject? v).isSome) = [] := by
  induction items generalizing vs with
  | nil =>
    cases read
    exact ⟨rfl, rfl, rfl⟩
  | cons v items ih =>
    rw [List.mapM_cons] at read
    obtain ⟨w, hw, read⟩ := Option.bind_eq_some_iff.mp read
    obtain ⟨ws, hws, read⟩ := Option.bind_eq_some_iff.mp read
    cases read
    obtain ⟨taken, found, dropped⟩ := ih hws
    simp [hw, taken, found, dropped]

/-- Taking in what can be read as violations adds them where the recorder stands. -/
theorem runWith_adopt (records : s.Records n e r) {found : Value} {vs : List Violation}
    (listed : Violation.listed? found = some vs) :
    (adopt n found).runWith s = (.ok ((s.recorded n e (r.adopt vs)).toValue n), s.recorded n e (r.adopt vs)) := by
  rcases read : Report.ofObject? found with _ | report
  · rcases iterated : found.iterate with e | items
    · rw [Violation.listed?, read] at listed
      dsimp only at listed
      rw [iterated] at listed
      cases listed
    · rw [Violation.listed?, read] at listed
      dsimp only at listed
      rw [iterated] at listed
      obtain ⟨taken, kept, dropped⟩ := takes_items listed
      unfold adopt
      rw [read]
      dsimp only
      rw [runWith_bind, runWith_lift, iterated]
      dsimp only
      rw [runWith_bind, taken, kept, runWith_record records]
      dsimp only
      rw [dropped]
      rfl
  · rw [Violation.listed?, read] at listed
    cases listed
    obtain ⟨taken, kept, dropped⟩ := takes_items (Violation.mapM_ofObject? report.violations)
    unfold adopt
    rw [read]
    dsimp only
    rw [pure_bind, runWith_bind, taken, kept, runWith_record records]
    dsimp only
    rw [dropped]
    rfl

theorem runWith_modify (change : Session → Session) (s : Session) :
    (modify change : Action Unit).runWith s = (.ok ⟨⟩, change s) := rfl

theorem runWith_enter (records : s.Records n e r) (step : Segment) :
    ∃ v, (enter n step).runWith s = (.ok v, { s with entered := n :: s.entered }.recorded n e (r.enter step)) := by
  have records' : { s with entered := n :: s.entered }.Records n e r := ⟨records.recorder, records.violations⟩
  refine ⟨({ s with entered := n :: s.entered }.recorded n e (r.enter step)).toValue n, ?_⟩
  rw [enter, runWith_bind, runWith_modify]
  exact runWith_record records' (·.enter step)

theorem runWith_leave (records : s.Records n e r) {rest : List Nat} (entered : s.entered = n :: rest) :
    leave.runWith s = (.ok ⟨⟩, { s with entered := rest }.recorded n e r.leave) := by
  have records' : { s with entered := rest }.Records n e r := ⟨records.recorder, records.violations⟩
  unfold leave
  rw [runWith_get_bind, entered]
  dsimp only
  rw [runWith_bind, runWith_modify]
  dsimp only
  rw [runWith_bind, runWith_record records']
  rfl

theorem serial_shown (s : Session) (o : LiveObject) : ((s.withNew o).toValue s.nextSerial).serial = s.nextSerial := by
  rw [Session.toValue, Session.lookup_withNew_self]
  cases o <;> rfl

theorem runWith_make (o : LiveObject) (s : Session) :
    (make o).runWith s = (.ok ((s.withNew o).toValue s.nextSerial), s.withNew o) := by
  rw [make, runWith_bind, runWith_place]
  rfl

theorem runWith_makeRecorder (s : Session) : ∃ v, v.serial = s.nextSerial + 1 ∧
    makeRecorder.runWith s = (.ok v, (s.withNew (.violations [])).withNew (.recorder s.nextSerial [])) := by
  refine ⟨_, serial_shown (s.withNew (.violations [])) (.recorder s.nextSerial []), ?_⟩
  rw [makeRecorder, runWith_bind, makeViolations, runWith_make]
  dsimp only
  rw [serial_shown, runWith_make]

/-- A recorder with violations builds a failed report, which shows the violations of the recorder. -/
theorem runWith_buildReport_failed (records : s.Records n e r) (fresh : e ≠ s.nextSerial) (failed : r.violations ≠ [])
    (value : Value) : ∃ v, v.serial = s.nextSerial ∧ Report.ofObject? v = some (r.build value) ∧
      (buildReport n value).runWith s = (.ok v, s.withNew (.report false value e)) := by
  have found : (s.withNew (.report false value e)).objects.lookup s.nextSerial = some (.report false value e) :=
    Session.lookup_withNew_self
  have shows : (s.withNew (.report false value e)).violations e = r.violations := by
    rw [Session.violations, Session.lookup_withNew_other fresh, records.violations]
  refine ⟨_, serial_shown s (.report false value e), ?_, ?_⟩
  · rw [Session.report_toValue found, shows]
    simp [Recorder.build, Report.of, failed]
  · have has : r.hasViolations = true := by simpa [Recorder.hasViolations] using failed
    unfold buildReport
    rw [runWith_get_bind, records.recorder_eq]
    dsimp only
    rw [if_pos has, runWith_make]

/-- A recorder without violations builds a report with violations of its own, of which there are none. -/
theorem runWith_buildReport_passed (records : s.Records n e r) (passed : r.violations = []) (value : Value) :
    ∃ v, v.serial = s.nextSerial + 1 ∧ Report.ofObject? v = some (r.build value) ∧
      (buildReport n value).runWith s = (.ok v, (s.withNew (.violations [])).withNew (.report true value s.nextSerial)) := by
  have found : ((s.withNew (.violations [])).withNew (.report true value s.nextSerial)).objects.lookup (s.nextSerial + 1) =
      some (.report true value s.nextSerial) := Session.lookup_withNew_self (s := s.withNew (.violations []))
  have shows : ((s.withNew (.violations [])).withNew (.report true value s.nextSerial)).violations s.nextSerial = [] := by
    rw [Session.violations, Session.lookup_withNew_other (Nat.ne_of_lt (Nat.lt_succ_self _)), Session.lookup_withNew_self]
  refine ⟨_, serial_shown (s.withNew (.violations [])) (.report true value s.nextSerial), ?_, ?_⟩
  · rw [show (s.withNew (.violations [])).nextSerial = s.nextSerial + 1 from rfl, Session.report_toValue found, shows]
    simp [Recorder.build, Report.of, passed]
  · have none : r.hasViolations = false := by simp [Recorder.hasViolations, passed]
    have clean : r.build value = ⟨true, value, []⟩ := by simp [Recorder.build, Report.of, passed]
    unfold buildReport
    rw [runWith_get_bind, records.recorder_eq]
    dsimp only
    rw [none, if_neg (by decide), clean, makeReport, runWith_bind, makeViolations, runWith_make]
    dsimp only
    rw [serial_shown, runWith_make]

end Action

/-! ### Programs and their journals -/

theorem forall₂_getElem? {α β : Type} {R : α → β → Prop} {xs : List α} {ys : List β} (h : List.Forall₂ R xs ys) :
    ∀ {i : Nat} {y : β}, ys[i]? = some y → ∃ x, xs[i]? = some x ∧ R x y := by
  induction h with
  | nil => simp
  | @cons x y xs ys hxy _ ih =>
    intro i z hz
    cases i with
    | zero =>
      obtain rfl : y = z := by simpa using hz
      exact ⟨x, rfl, hxy⟩
    | succ i => simpa using ih (by simpa using hz)

theorem getElem?_apart {α : Type} {xs : List α} (distinct : xs.Nodup) {i k : Nat} {x y : α} (hi : xs[i]? = some x)
    (hk : xs[k]? = some y) (different : i ≠ k) : x ≠ y := by
  rintro rfl
  obtain ⟨within, -⟩ := List.getElem?_eq_some_iff.mp hi
  exact different ((List.getElem?_inj within distinct).mp (hi.trans hk.symm))

/-- A report shows the violations of the recorder at a place, or none: then they are no recorder's. -/
def Session.Shows (s : Session) (slots : List (Nat × Nat)) (m : Nat) : Option Nat → Prop
  | some k => ∃ value n e, s.objects.lookup m = some (.report false value e) ∧ slots[k]? = some (n, e)
  | none => ∃ value e, s.objects.lookup m = some (.report true value e) ∧ s.objects.lookup e = some (.violations []) ∧
      e ∉ slots.map Prod.snd

/-- A report shows the same in a session that keeps what there was, with more recorders. -/
theorem Session.Shows.mono {s s' : Session} {slots more : List (Nat × Nat)} {m : Nat} {owner : Option Nat}
    (shows : s.Shows slots m owner)
    (kept : ∀ {x o}, s.objects.lookup x = some o → s'.objects.lookup x = some o)
    (own : ∀ {e o}, s.objects.lookup e = some o → e ∉ more.map Prod.snd) : s'.Shows (slots ++ more) m owner := by
  cases owner with
  | some k =>
    obtain ⟨value, n, e, found, slot⟩ := shows
    exact ⟨value, n, e, kept found, getElem?_append_some slot more⟩
  | none =>
    obtain ⟨value, e, found, empty, apart⟩ := shows
    refine ⟨value, e, kept found, kept empty, ?_⟩
    rw [List.map_append, List.mem_append, not_or]
    exact ⟨apart, own empty⟩

/-- Things of different kinds stand under different numbers. -/
theorem Session.apart_of_ne {s : Session} {x y : Nat} {o o' : LiveObject} (hx : s.objects.lookup x = some o)
    (hy : s.objects.lookup y = some o') (different : o ≠ o') : x ≠ y := by
  rintro rfl
  exact different (Option.some.inj (hx.symm.trans hy))

/-- A report shows the same recorder after a recorder was changed. -/
theorem Session.Shows.recorded {s : Session} {slots : List (Nat × Nat)} {m k n e : Nat} {owner : Option Nat} {r : Recorder}
    (shows : s.Shows slots m owner) (records : s.Records n e r) (slot : slots[k]? = some (n, e)) (r' : Recorder) :
    (s.recorded n e r').Shows slots m owner := by
  -- Neither the report nor violations of its own are what was changed.
  have other {x : Nat} {o : LiveObject} (found : s.objects.lookup x = some o) (hn : x ≠ n) (he : x ≠ e) :
      (s.recorded n e r').objects.lookup x = some o := (lookup_recorded_other hn he).trans found
  cases owner with
  | some l =>
    obtain ⟨value, n', e', found, slot'⟩ := shows
    have kept := other found (apart_of_ne found records.recorder nofun) (apart_of_ne found records.violations nofun)
    exact ⟨value, n', e', kept, slot'⟩
  | none =>
    obtain ⟨value, e', found, empty, own⟩ := shows
    have he : e' ≠ e := by
      rintro rfl
      exact own (List.mem_map_of_mem (List.mem_of_getElem? slot))
    have kept := other found (apart_of_ne found records.recorder nofun) (apart_of_ne found records.violations nofun)
    exact ⟨value, e', kept, other empty (apart_of_ne empty records.recorder nofun) he, own⟩

/-- What a program holds is what journals tell: each recorder has a slot with its number and the number of its
violations, which no other one has. -/
structure Tallies (d : Desk) (slots : List (Nat × Nat)) (j : Journals) : Prop where
  recorders : d.recorders = slots.map Prod.fst
  logs : slots.length = j.logs.length
  apart : (slots.map Prod.fst).Nodup
  cells : (slots.map Prod.snd).Nodup
  records {k n e r} : slots[k]? = some (n, e) → j.recorder? k = some r → d.session.Records n e r
  entered : List.Forall₂ (fun n b => d.recorders[b.1]? = some n) d.session.entered j.entered
  reports : List.Forall₂ (d.session.Shows slots) d.reports j.reports
  used {n o} : d.session.objects.lookup n = some o → n < d.session.nextSerial

namespace Tallies
variable {d : Desk} {slots : List (Nat × Nat)} {j j' : Journals} {k n e : Nat} {r r' : Recorder}

theorem start : Tallies .start [] .start where
  recorders := rfl
  logs := rfl
  apart := List.nodup_nil
  cells := List.nodup_nil
  records h := by simp at h
  entered := .nil
  reports := .nil
  used {n o} h := by
    by_cases shared : n = Session.sharedTable
    · subst shared
      decide
    · simp [Desk.start, Session.start, List.lookup_cons, beq_false_of_ne shared] at h

/-- A recorder that journals tell of is there. -/
theorem recorder (tallies : Tallies d slots j) (hr : j.recorder? k = some r) :
    ∃ n e, d.recorders[k]? = some n ∧ slots[k]? = some (n, e) ∧ d.session.Records n e r := by
  have within : k < slots.length := by
    obtain ⟨log, hlog, -⟩ := Option.map_eq_some_iff.mp hr
    obtain ⟨within, -⟩ := List.getElem?_eq_some_iff.mp hlog
    rwa [tallies.logs]
  obtain ⟨⟨n, e⟩, slot⟩ : ∃ x, slots[k]? = some x := ⟨_, List.getElem?_eq_getElem within⟩
  refine ⟨n, e, ?_, slot, tallies.records slot hr⟩
  rw [tallies.recorders, List.getElem?_map, slot]
  rfl

/-- Changing a recorder, and the steps that are open, changes what journals tell of it, and nothing that they tell of
others. -/
theorem recorded (tallies : Tallies d slots j) (slot : slots[k]? = some (n, e)) (records : d.session.Records n e r)
    {opened : List Nat} (here : j'.recorder? k = some r') (others : ∀ l, l ≠ k → j'.recorder? l = j.recorder? l)
    (logs : j'.logs.length = j.logs.length) (reports : j'.reports = j.reports)
    (entered : List.Forall₂ (fun n b => d.recorders[b.1]? = some n) opened j'.entered) :
    Tallies { d with session := { d.session with entered := opened }.recorded n e r' } slots j' := by
  have records' : { d.session with entered := opened }.Records n e r := ⟨records.recorder, records.violations⟩
  refine ⟨tallies.recorders, tallies.logs.trans logs.symm, tallies.apart, tallies.cells, ?_, entered, ?_, ?_⟩
  · intro l n' e' r'' slot' hr
    by_cases same : l = k
    · subst same
      cases slot.symm.trans slot'
      cases here.symm.trans hr
      exact records'.recorded r'
    · have held := tallies.records slot' (others l same ▸ hr)
      have hn : n' ≠ n := getElem?_apart tallies.apart (by simp [slot']) (by simp [slot]) same
      have he : e' ≠ e := getElem?_apart tallies.cells (by simp [slot']) (by simp [slot]) same
      have hne : n' ≠ e := Session.apart_of_ne held.recorder records.violations nofun
      have hen : e' ≠ n := Session.apart_of_ne held.violations records.recorder nofun
      exact ⟨(Session.lookup_recorded_other hn hne).trans held.recorder,
        (Session.lookup_recorded_other hen he).trans held.violations⟩
  · rw [reports]
    exact tallies.reports.imp fun m owner shows =>
      Session.Shows.recorded (s := { d.session with entered := opened }) shows records' slot r'
  · intro x o found
    change x < d.session.nextSerial
    by_cases hn : x = n
    · exact hn ▸ tallies.used records.recorder
    by_cases he : x = e
    · exact he ▸ tallies.used records.violations
    rw [Session.lookup_recorded_other hn he] at found
    exact tallies.used found

/-- What is in a session is there after an object was made. -/
theorem kept (tallies : Tallies d slots j) (made : LiveObject) {x : Nat} {o : LiveObject}
    (found : d.session.objects.lookup x = some o) : (d.session.withNew made).objects.lookup x = some o := by
  rw [Session.lookup_withNew_other (Nat.ne_of_lt (tallies.used found)), found]

/-- Making an object leaves what journals tell of. -/
theorem withNew (tallies : Tallies d slots j) (made : LiveObject) :
    Tallies { d with session := d.session.withNew made } slots j where
  recorders := tallies.recorders
  logs := tallies.logs
  apart := tallies.apart
  cells := tallies.cells
  records slot hr :=
    ⟨tallies.kept made (tallies.records slot hr).recorder, tallies.kept made (tallies.records slot hr).violations⟩
  entered := tallies.entered
  reports := tallies.reports.imp fun m owner shows =>
    List.append_nil slots ▸ shows.mono (tallies.kept made) (fun _ => List.not_mem_nil)
  used {x o} found := by
    change x < d.session.nextSerial + 1
    by_cases new : x = d.session.nextSerial
    · exact new ▸ Nat.lt_succ_self _
    · rw [Session.lookup_withNew_other new] at found
      exact Nat.lt_succ_of_lt (tallies.used found)

/-- Numbers in slots were given out. -/
theorem slot_used (tallies : Tallies d slots j) {x : Nat × Nat} (slot : x ∈ slots) :
    x.1 < d.session.nextSerial ∧ x.2 < d.session.nextSerial := by
  obtain ⟨k, within, rfl⟩ := List.getElem_of_mem slot
  obtain ⟨r, told⟩ : ∃ r, j.recorder? k = some r := by
    rw [Journals.recorder?, List.getElem?_eq_getElem (tallies.logs ▸ within)]
    exact ⟨_, rfl⟩
  have held := tallies.records (List.getElem?_eq_getElem within) told
  exact ⟨tallies.used held.recorder, tallies.used held.violations⟩

/-- A number that was not given out yet is in no slot. -/
theorem fresh (tallies : Tallies d slots j) {m : Nat} (later : d.session.nextSerial ≤ m) :
    m ∉ slots.map Prod.fst ∧ m ∉ slots.map Prod.snd := by
  constructor <;> intro taken <;> obtain ⟨x, slot, same⟩ := List.mem_map.mp taken
  · exact Nat.not_le_of_lt (same ▸ (tallies.slot_used slot).1) later
  · exact Nat.not_le_of_lt (same ▸ (tallies.slot_used slot).2) later

/-- A recorder that takes a step was made. -/
theorem entered_made (tallies : Tallies d slots j) {b : Nat × Segment} (opened : b ∈ j.entered) :
    b.1 < j.logs.length := by
  obtain ⟨i, within, rfl⟩ := List.getElem_of_mem opened
  obtain ⟨n, -, made⟩ := forall₂_getElem? tallies.entered (List.getElem?_eq_getElem within)
  obtain ⟨made, -⟩ := List.getElem?_eq_some_iff.mp made
  simpa [tallies.recorders, tallies.logs] using made

/-- A recorder that was just made is told of by an empty log. -/
theorem addRecorder (tallies : Tallies d slots j) : Tallies
    { d with
      session := (d.session.withNew (.violations [])).withNew (.recorder d.session.nextSerial [])
      recorders := d.recorders ++ [d.session.nextSerial + 1] }
    (slots ++ [(d.session.nextSerial + 1, d.session.nextSerial)]) { j with logs := j.logs ++ [[]] } := by
  have cell := tallies.withNew (.violations [])
  have whole := cell.withNew (.recorder d.session.nextSerial [])
  refine ⟨?_, ?_, ?_, ?_, ?_, ?_, ?_, whole.used⟩
  · simp [tallies.recorders]
  · simp [tallies.logs]
  · rw [List.map_append]
    exact tallies.apart.append (List.nodup_singleton _) (List.disjoint_singleton.mpr (tallies.fresh (Nat.le_succ _)).1)
  · rw [List.map_append]
    exact tallies.cells.append (List.nodup_singleton _) (List.disjoint_singleton.mpr (tallies.fresh (Nat.le_refl _)).2)
  · intro k n e r slot hr
    by_cases before : k < slots.length
    · rw [List.getElem?_append_left before] at slot
      refine whole.records slot ?_
      rw [← hr, Journals.recorder?, Journals.recorder?, List.getElem?_append_left (tallies.logs ▸ before)]
      rfl
    · obtain ⟨within, -⟩ := List.getElem?_eq_some_iff.mp slot
      rw [List.length_append, List.length_singleton] at within
      obtain rfl : k = slots.length := by omega
      -- No step of the new recorder is open.
      have root : j.path slots.length = [] := by
        have closed : j.entered.filter (fun b => b.1 == slots.length) = [] := by
          refine List.filter_eq_nil_iff.mpr fun b opened => ?_
          have made := tallies.entered_made opened
          rw [← tallies.logs] at made
          simp [Nat.ne_of_lt made]
        rw [Journals.path, closed]
        rfl
      obtain ⟨rfl, rfl⟩ : n = d.session.nextSerial + 1 ∧ e = d.session.nextSerial := by simpa [eq_comm] using slot
      obtain rfl : ⟨[], j.path slots.length⟩ = r := by
        rw [tallies.logs] at hr ⊢
        rw [Journals.recorder?, List.getElem?_concat_length] at hr
        exact Option.some.inj hr
      refine ⟨?_, ?_⟩
      · rw [root]
        exact Session.lookup_withNew_self (s := d.session.withNew (.violations []))
      · exact cell.kept _ Session.lookup_withNew_self
  · exact whole.entered.imp fun n b made => getElem?_append_some made _
  · refine tallies.reports.imp fun m owner shows => shows.mono (fun found => cell.kept _ (tallies.kept _ found)) ?_
    intro e o found
    simpa using Nat.ne_of_lt (tallies.used found)

/-- A report is told of by the recorder whose violations it shows. -/
theorem addReport (tallies : Tallies d slots j) {m : Nat} {owner : Option Nat} (shows : d.session.Shows slots m owner) :
    Tallies { d with reports := d.reports ++ [m] } slots { j with reports := j.reports ++ [owner] } where
  recorders := tallies.recorders
  logs := tallies.logs
  apart := tallies.apart
  cells := tallies.cells
  records := tallies.records
  entered := tallies.entered
  reports := List.rel_append tallies.reports (.cons shows .nil)
  used := tallies.used

end Tallies

/-! ### Calls -/

namespace RecorderCall

/-- The fault of an answer, if it is one. -/
def fault? : Except Fault Value → Option Fault
  | .ok _ => none
  | .error e => some e

/-- The exception by which a call leaves a step. -/
def raised? : RecorderCall → Option Fault
  | .leave raised => raised
  | _ => none

/-- A call raises nothing but what it is told to, and leaves a program that journals tell of. -/
def Kept (d : Desk) (c : RecorderCall) (j : Journals) : Prop :=
  fault? (c.step d).1 = c.raised? ∧ ∃ slots, Tallies (c.step d).2 slots j

theorem Kept.of_perform {d : Desk} {c : RecorderCall} {j : Journals} {slots : List (Nat × Nat)}
    {answer : Except Fault Value} {s' : Session} (performed : (c.perform d).runWith d.session = (answer, s'))
    (raised : fault? answer = c.raised?) (tallies : Tallies (keep { d with session := s' } c answer) slots j) :
    c.Kept d j := by
  rw [Kept, step, performed]
  exact ⟨raised, slots, tallies⟩

end RecorderCall

/-- A number that is there is found. -/
theorem Action.runWith_requireNumber {α : Type} {numbers : List Nat} {k n : Nat} (found : numbers[k]? = some n)
    (s : Session) (next : Nat → Action α) : (requireNumber numbers k >>= next).runWith s = (next n).runWith s := by
  rw [runWith_bind, requireNumber, runWith_lift, found]

namespace Tallies
variable {d : Desk} {slots : List (Nat × Nat)} {j j' : Journals} {k : Nat} {findings : List Finding}

theorem make (tallies : Tallies d slots j) : RecorderCall.make.Kept d { j with logs := j.logs ++ [[]] } := by
  obtain ⟨v, serial, performed⟩ := Action.runWith_makeRecorder d.session
  have kept := tallies.addRecorder
  rw [← serial] at kept
  exact .of_perform performed rfl kept

theorem enter (tallies : Tallies d slots j) {log : List Finding} (hlog : j.logs[k]? = some log) (segment : Segment) :
    (RecorderCall.enter k segment).Kept d { j with entered := (k, segment) :: j.entered } := by
  obtain ⟨n, e, number, slot, records⟩ := tallies.recorder (Journals.recorder?_of_log hlog)
  obtain ⟨v, performed⟩ := Action.runWith_enter records segment
  exact .of_perform ((Action.runWith_requireNumber number ..).trans performed) rfl <|
    tallies.recorded slot records (Journals.recorder?_enter (Journals.recorder?_of_log hlog) segment)
      (fun l other => Journals.recorder?_enter_other j other segment) rfl rfl (.cons number tallies.entered)

theorem leave (tallies : Tallies d slots j) {segment : Segment} {rest : List (Nat × Segment)}
    (opened : j.entered = (k, segment) :: rest) (raised : Option Fault) :
    (RecorderCall.leave raised).Kept d { j with entered := rest } := by
  obtain ⟨log, hlog⟩ : ∃ log, j.logs[k]? = some log :=
    ⟨_, List.getElem?_eq_getElem (tallies.entered_made (opened ▸ List.mem_cons_self))⟩
  have hr := Journals.recorder?_of_log hlog
  obtain ⟨n, e, number, slot, records⟩ := tallies.recorder hr
  obtain ⟨below, innermost, entered⟩ : ∃ below, d.session.entered = n :: below ∧
      List.Forall₂ (fun n b => d.recorders[b.1]? = some n) below rest := by
    have entered := tallies.entered
    rw [opened, List.forall₂_cons_right_iff] at entered
    obtain ⟨n', below, same, entered, innermost⟩ := entered
    cases number.symm.trans same
    exact ⟨below, innermost, entered⟩
  have performed : ((RecorderCall.leave raised).perform d).runWith d.session =
      (raised.elim (.ok .absent) .error,
        { d.session with entered := below }.recorded n e (Recorder.leave ⟨log.map Finding.violation, j.path k⟩)) := by
    cases raised <;> rw [RecorderCall.perform, Action.runWith_bind, Action.runWith_leave records innermost] <;> rfl
  exact .of_perform performed (by cases raised <;> rfl) <|
    tallies.recorded slot records (Journals.recorder?_leave opened hr)
      (fun l other => Journals.recorder?_leave_other opened other) rfl rfl entered

/-- What a recorder takes down is taken down in its journal. -/
theorem noted (tallies : Tallies d slots j) (noted : j.note k findings = some j') :
    ∃ n e r, d.recorders[k]? = some n ∧ d.session.Records n e r ∧
      Tallies { d with session := d.session.recorded n e (r.adopt (findings.map Finding.violation)) } slots j' := by
  obtain ⟨log, hlog, hj'⟩ := Option.map_eq_some_iff.mp noted
  have hr := Journals.recorder?_of_log hlog
  obtain ⟨n, e, number, slot, records⟩ := tallies.recorder hr
  refine ⟨n, e, _, number, records, tallies.recorded slot records (Journals.recorder?_note noted hr)
    (fun l other => Journals.recorder?_note_other noted other) ?_ ?_ ?_⟩
  all_goals subst hj'
  · exact List.length_set
  · rfl
  · exact tallies.entered

theorem report (tallies : Tallies d slots j) {kind : String} {details : Details}
    (noted : j.note k [⟨[], .report kind details []⟩] = some j') : (RecorderCall.report k kind details).Kept d j' := by
  obtain ⟨n, e, r, number, records, kept⟩ := tallies.noted noted
  have same : r.adopt [Finding.violation ⟨[], .report kind details []⟩] = r.report kind details := by
    simp [Recorder.adopt, Recorder.report, Finding.violation, Violation.under_report]
  rw [List.map_singleton, same] at kept
  exact .of_perform ((Action.runWith_requireNumber number ..).trans (Action.runWith_record records _)) rfl kept

/-- What a recorder may take in from a source reads as what journals find there. -/
theorem found (tallies : Tallies d slots j) {source : Source} (found : j.found k source = some findings) :
    ∃ v, (source.find d).runWith d.session = (.ok v, d.session) ∧
      Violation.listed? v = some (findings.map Finding.violation) := by
  cases source with
  | report i =>
    obtain ⟨owner, told, found⟩ := Option.bind_eq_some_iff.mp found
    obtain ⟨m, number, shows⟩ := forall₂_getElem? tallies.reports told
    refine ⟨d.session.toValue m, Action.runWith_requireNumber number .., ?_⟩
    cases owner with
    | none =>
      cases found
      obtain ⟨value, e, found, empty, -⟩ := shows
      simp only [Violation.listed?, Session.report_toValue found, Session.violations, empty, List.map_nil]
    | some l =>
      obtain ⟨value, n, e, found', slot⟩ := shows
      have hlog : j.logs[l]? = some findings := by
        dsimp only at found
        split at found
        · cases found
        · exact found
      have records := tallies.records slot (Journals.recorder?_of_log hlog)
      simp only [Violation.listed?, Session.report_toValue found', Session.violations, records.violations]
  | recorder l =>
    have hlog : j.logs[l]? = some findings := by
      rw [Journals.found] at found
      split at found
      · cases found
      · exact found
    obtain ⟨n, e, number, -, records⟩ := tallies.recorder (Journals.recorder?_of_log hlog)
    refine ⟨d.session.violationsValue e, ?_, ?_⟩
    · refine (Action.runWith_requireNumber number ..).trans ?_
      rw [Action.runWith_get_bind, records.recorder_eq]
      rfl
    · rw [Session.violationsValue_listed, Session.violations, records.violations]
  | value v =>
    obtain ⟨vs, listed, rfl⟩ := Option.map_eq_some_iff.mp found
    refine ⟨v, rfl, ?_⟩
    rw [listed, List.map_map]
    simp [Function.comp_def, Finding.violation]

theorem adopt (tallies : Tallies d slots j) {source : Source} (found : j.found k source = some findings)
    (noted : j.note k findings = some j') : (RecorderCall.adopt k source).Kept d j' := by
  obtain ⟨v, read, listed⟩ := tallies.found found
  obtain ⟨n, e, r, number, records, kept⟩ := tallies.noted noted
  have performed : ((RecorderCall.adopt k source).perform d).runWith d.session =
      (Action.adopt n v).runWith d.session := by
    refine (Action.runWith_requireNumber number ..).trans ?_
    rw [Action.runWith_bind, read]
  exact .of_perform (performed.trans (Action.runWith_adopt records listed)) rfl kept

/-- A recorder builds the report of what it took down. -/
theorem built (tallies : Tallies d slots j) {log : List Finding} (hlog : j.logs[k]? = some log) (value : Value) :
    ∃ v, ((RecorderCall.build k value).step d).1 = .ok v ∧
      Report.ofObject? v = some (.of value (log.map Finding.violation)) ∧
      Tallies ((RecorderCall.build k value).step d).2 slots
        { j with reports := j.reports ++ [if log.isEmpty then none else some k] } := by
  obtain ⟨n, e, number, slot, records⟩ := tallies.recorder (Journals.recorder?_of_log hlog)
  cases log with
  | nil =>
    obtain ⟨v, serial, read, ran⟩ := Action.runWith_buildReport_passed records rfl value
    have performed := (Action.runWith_requireNumber number d.session fun n => Action.buildReport n value).trans ran
    refine ⟨v, ?_, read, ?_⟩ <;> rw [RecorderCall.step, RecorderCall.perform, performed]
    rw [RecorderCall.keep, serial]
    refine ((tallies.withNew (.violations [])).withNew (.report true value d.session.nextSerial)).addReport
      (show Session.Shows _ _ _ none from ⟨value, d.session.nextSerial, ?_, ?_, ?_⟩)
    · exact Session.lookup_withNew_self (s := d.session.withNew (.violations []))
    · exact (tallies.withNew _).kept _ Session.lookup_withNew_self
    · exact (tallies.fresh (Nat.le_refl _)).2
  | cons f log =>
    have fresh : e ≠ d.session.nextSerial := Nat.ne_of_lt (tallies.used records.violations)
    obtain ⟨v, serial, read, ran⟩ := Action.runWith_buildReport_failed records fresh (List.cons_ne_nil _ _) value
    have performed := (Action.runWith_requireNumber number d.session fun n => Action.buildReport n value).trans ran
    refine ⟨v, ?_, read, ?_⟩ <;> rw [RecorderCall.step, RecorderCall.perform, performed]
    rw [RecorderCall.keep, serial]
    exact (tallies.withNew (.report false value e)).addReport ⟨value, n, e, Session.lookup_withNew_self, slot⟩

/-- An allowed call leaves what journals tell of it. -/
theorem step (tallies : Tallies d slots j) {c : RecorderCall} (turned : j.turn c = some j') : c.Kept d j' := by
  cases c with
  | make =>
    cases turned
    exact tallies.make
  | enter k segment =>
    obtain ⟨log, hlog, rfl⟩ := Option.map_eq_some_iff.mp turned
    exact tallies.enter hlog segment
  | leave raised =>
    rw [Journals.turn] at turned
    split at turned
    · cases turned
    · next opened =>
      cases turned
      exact tallies.leave opened raised
  | report k kind details => exact tallies.report turned
  | adopt k source =>
    obtain ⟨findings, found, noted⟩ := Option.bind_eq_some_iff.mp turned
    exact tallies.adopt found noted
  | build k value =>
    obtain ⟨log, hlog, rfl⟩ := Option.map_eq_some_iff.mp turned
    obtain ⟨v, answer, -, tallies⟩ := tallies.built hlog value
    exact ⟨by rw [answer]; rfl, _, tallies⟩

/-- Allowed calls one after another leave what journals tell of them, and raise what they are told to. -/
theorem run (calls : List RecorderCall) : ∀ {d : Desk} {slots : List (Nat × Nat)} {j j' : Journals}, Tallies d slots j →
    calls.foldlM Journals.turn j = some j' →
      (RecorderCall.run calls d).1.map RecorderCall.fault? = calls.map RecorderCall.raised? ∧
        ∃ slots', Tallies (RecorderCall.run calls d).2 slots' j' := by
  induction calls with
  | nil =>
    intro d slots j j' tallies told
    cases told
    exact ⟨rfl, slots, tallies⟩
  | cons c calls ih =>
    intro d slots j j' tallies told
    rw [List.foldlM_cons] at told
    obtain ⟨j₁, turned, told⟩ := Option.bind_eq_some_iff.mp told
    obtain ⟨raised, slots₁, tallies₁⟩ := tallies.step turned
    obtain ⟨later, tallies'⟩ := ih tallies₁ told
    refine ⟨?_, tallies'⟩
    rw [RecorderCall.run, List.map_cons, List.map_cons, raised]
    exact congrArg _ later

/-- Programs hold the recorders that journals tell of, and no others. -/
theorem recorder?_eq (tallies : Tallies d slots j) (k : Nat) : d.recorder? k = j.recorder? k := by
  rcases hlog : j.logs[k]? with _ | log
  · have none : d.recorders[k]? = none := by
      rw [List.getElem?_eq_none_iff] at hlog ⊢
      rwa [tallies.recorders, List.length_map, tallies.logs]
    rw [Desk.recorder?, none, Journals.recorder?, hlog]
    rfl
  · obtain ⟨n, e, number, -, records⟩ := tallies.recorder (Journals.recorder?_of_log hlog)
    rw [Desk.recorder?, number, Journals.recorder?_of_log hlog, Option.map_some, records.recorder_eq]

end Tallies

/-! ### Whole programs -/

namespace RecorderCall

/-- What a program of allowed calls does is what its journals tell. No call raises anything but the exceptions by
which steps are left; after all calls, and after any number of the first of them, each recorder stands where its open
steps lead and holds what it took down, in order, each violation under the paths that it was taken down under; what
was taken down stays; and each recorder builds a report of just that, which is valid if nothing was taken down. -/
theorem run_journals {calls : List RecorderCall} {j : Journals} (allowed : Journals.of calls = some j) :
    (run calls .start).1.map fault? = calls.map raised? ∧
    (∀ k, (run calls .start).2.recorder? k = j.recorder? k) ∧
    (∀ n, ∃ before, Journals.of (calls.take n) = some before ∧ before.Grows j ∧
      ∀ k, (run (calls.take n) .start).2.recorder? k = before.recorder? k) ∧
    ∀ k log value, j.logs[k]? = some log → ∃ v, ((build k value).step (run calls .start).2).1 = .ok v ∧
      Report.ofObject? v = some ⟨log.isEmpty, value, log.map Finding.violation⟩ := by
  obtain ⟨raised, slots, tallies⟩ := Tallies.start.run calls allowed
  refine ⟨raised, tallies.recorder?_eq, fun n => ?_, fun k log value hlog => ?_⟩
  · rw [← List.take_append_drop n calls] at allowed
    obtain ⟨before, first, grows⟩ := Journals.of_append allowed
    obtain ⟨-, slots', tallies'⟩ := Tallies.start.run (calls.take n) first
    exact ⟨before, first, grows, tallies'.recorder?_eq⟩
  · obtain ⟨v, answer, read, -⟩ := tallies.built hlog value
    refine ⟨v, answer, ?_⟩
    rw [read, Report.of, List.isEmpty_map]

/-- Three recorders with a step open each. The last one reports a violation and leaves its step by an exception, the
one before it takes in the report of the last one, and the first one takes in the report of that. -/
def nested : List RecorderCall :=
  [.make, .make, .make, .enter 0 (.field (.text "p")), .enter 1 (.field (.text "q")), .enter 2 (.field (.text "c")),
    .report 2 "min" [], .leave (some (.undefinedName "x")), .build 2 .absent, .adopt 1 (.report 0), .build 1 .absent,
    .adopt 0 (.report 1), .leave none]

theorem run_journals_of_nested :
    (run nested .start).2.recorder? 0 =
      some ⟨[.report "min" [] [.field (.text "p"), .field (.text "q"), .field (.text "c")]], [.field (.text "p")]⟩ := by
  have allowed : Journals.of nested = some _ := rfl
  exact (run_journals allowed).2.1 0

end RecorderCall
end Conform

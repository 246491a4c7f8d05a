import Mathlib.Data.List.Nodup
import ScreenFlow.Proofs.Offline.Contents
import ScreenFlow.Proofs.Offline.Order

/-!
# The queue keeps what it has accepted

* `Crew.Keeps`: the stored events are those that were accepted, without those that a completed pass has
  replayed with success;
* `Crew.Step.keeps`: every step of a crew keeps that, in whatever order the calls go on and wherever
  one is abandoned;
* `stored_exactly`: what is stored in a reachable pool.
-/

namespace ScreenFlow.OfflineQueue

/-! ### What a pass knows -/

/-- The queue began with the events that were seen, and they had been accepted. -/
structure SeenOf (accepted seen es : List OfflineEvent) : Prop where
  begins : seen.map key <+: es.map key
  stems : Stems accepted seen

/-- Every event that was replayed has failed or was sent. -/
structure Settled (replayed sent : List OfflineEvent) (p : Pass) : Prop where
  failed : p.failed.Sublist replayed
  each : (p.failed ++ sent).Perm replayed

theorem Settled.empty : Settled [] [] {} := ⟨.slnil, .nil⟩

theorem Settled.after {replayed sent : List OfflineEvent} {p : Pass} (h : Settled replayed sent p)
    (e : OfflineEvent) (r : Except Fault Unit) :
    Settled (replayed ++ [e]) (sentAfter r e sent) (p.after r e) := by
  cases r with
  | ok =>
    refine ⟨h.failed.trans (List.sublist_append_left _ _), ?_⟩
    rw [sentAfter, ← List.append_assoc]
    exact h.each.append_right [e]
  | error =>
    refine ⟨h.failed.append_right [e], ?_⟩
    have moved : ((p.failed ++ [e]) ++ sent).Perm ((p.failed ++ sent) ++ [e]) := by
      rw [List.append_assoc, List.append_assoc]
      exact List.perm_append_comm.append_left _
    exact moved.trans (h.each.append_right [e])

/-- A pass leaves everything that it has not sent. -/
theorem Settled.remaining {accepted seen sent es queued : List OfflineEvent} {p : Pass}
    (settled : Settled seen sent p) (h : SeenOf accepted seen es) (filed : Filed es)
    (read : es.mapM OfflineEvent.reread? = some queued) :
    ∃ new, OfflineQueue.remaining seen p.failed queued = p.failed ++ new ∧ Filed (p.failed ++ new) ∧
      new ⊆ queued ∧ (((p.failed ++ new) ++ sent).map (·.id)).Perm (es.map (·.id)) := by
  have same := keys_of_reread read
  obtain ⟨later, hlater⟩ := h.begins
  obtain ⟨old, new, rfl, hold, -⟩ := List.map_eq_append_iff.mp (same.trans hlater.symm)
  obtain ⟨left, left_filed⟩ := remaining_eq (filed.congr same) hold settled.failed
  refine ⟨new, left, left_filed, List.subset_append_right _ _, ?_⟩
  have halves : (old ++ new).map (·.id) = seen.map (·.id) ++ new.map (·.id) := by
    rw [List.map_append, map_id_of_keys hold]
  rw [← map_id_of_keys same, halves, ← List.map_append]
  refine List.Perm.map _ ?_
  rw [List.append_assoc]
  exact ((List.perm_append_comm.append_left _).trans (by rw [← List.append_assoc])).trans
    (settled.each.append_right new)

/-! ### What a stage relies on -/

section Stages

variable (accepted es : List OfflineEvent)

def Section.Fits : Section → Prop
  | .merge _ _ seen sent p => SeenOf accepted seen es ∧ Settled seen sent p
  | _ => True

/-- What a section may write over a queue of these events. -/
def Section.Writes (out : List OfflineEvent) : Section → Prop
  | .append e => ∃ queued stamp, es.mapM OfflineEvent.reread? = some queued ∧
      (∀ f ∈ queued, f.createdAt < stamp) ∧ out = queued ++ [{ e with createdAt := stamp }]
  | .merge _ _ seen _ p => ∃ queued, es.mapM OfflineEvent.reread? = some queued ∧
      out = remaining seen p.failed queued
  | .wipe => out = []
  | .snapshot _ => False

/-- What a call relies on, where it stands. -/
def Stage.Fits : Stage → Prop
  | .waiting sec _ | .reading sec _ => sec.Fits accepted es
  | .writing sec _ out => sec.Fits accepted es ∧ sec.Writes es out
  | .replaying _ _ seen sent _ e rest p | .pausing _ _ seen sent _ e rest p =>
    SeenOf accepted seen es ∧ ∃ replayed, seen = replayed ++ e :: rest ∧ Settled replayed sent p
  | .finished .. => True

end Stages

/-- Which call a section, and an accepted event, can come from. -/
def Section.Of (c : Call) : Section → Prop
  | .append e => c = .enqueue e
  | .wipe => c = .clear
  | _ => True

def Stage.Of (c : Call) : Stage → Prop
  | .waiting sec _ | .reading sec _ | .writing sec _ _ => sec.Of c
  | .finished (.queued (.ok id)) _ => ∃ e : OfflineEvent, c = .enqueue e ∧ id = e.id
  | _ => True

section Call

variable {o : OfflineSettings} {s s' : State} {stage stage' : Stage} {c : Call}
  {accepted accepted' es es' : List OfflineEvent}

theorem Section.refusal_of (sec : Section) (f : OfflineError) (sent : List OfflineEvent) :
    (Stage.finished (sec.refusal f) sent).Of c := by
  cases sec <;> trivial

theorem Begins.of (h : Begins o s c s' stage) : stage.Of c := by
  induction h with
  | enqueue e => rfl
  | clear => rfl
  | back _ replays _ => cases replays <;> trivial
  | _ => trivial

theorem Moves.of {mayFail : Prop} (h : Moves o mayFail s stage s' stage') (hof : stage.Of c) :
    stage'.Of c := by
  cases h with
  | enter | append | merge => exact hof
  | wipe => exact hof
  | unreadable | unwritten => exact Section.refusal_of _ _ _
  | @written sec =>
    cases sec with
    | append e => exact ⟨e, hof, rfl⟩
    | _ => trivial
  | _ => trivial

theorem Begins.stored (h : Begins o s c s' stage) : s'.stored = s.stored := by
  induction h with
  | back _ _ ih => exact ih
  | _ => rfl

theorem Begins.fits (h : Begins o s c s' stage) : stage.Fits accepted es := by
  induction h with
  | back _ _ ih => exact ih
  | _ => trivial

/-- The queue may grow while a call is not inside. -/
theorem Stage.Fits.grow (h : stage.Fits accepted es) (outside : stage.inside = [])
    (more : accepted ⊆ accepted') (begins : es.map key <+: es'.map key) :
    stage.Fits accepted' es' := by
  have seen_grows {seen} (h : SeenOf accepted seen es) : SeenOf accepted' seen es' :=
    ⟨h.begins.trans begins, h.stems.mono more fun _ hf => hf⟩
  cases stage with
  | waiting sec ticket =>
    cases sec with
    | merge => exact ⟨seen_grows h.1, h.2⟩
    | _ => trivial
  | reading | writing => cases outside
  | replaying | pausing => exact ⟨seen_grows h.1, h.2⟩
  | finished => trivial

theorem Stage.fits_of_idle (outside : stage.inside = []) (idle : stage.passes = []) :
    stage.Fits accepted es := by
  cases stage with
  | waiting sec =>
    cases sec with
    | merge => cases idle
    | _ => trivial
  | reading | writing => cases outside
  | replaying | pausing => cases idle
  | finished => trivial

theorem Stage.undone_stored (stage : Stage) (s : State) : (stage.undone s).stored = s.stored := by
  cases stage with
  | finished | replaying | pausing => rfl
  | waiting sec | reading sec | writing sec => cases sec <;> rfl

/-- What reading the queue comes to while the store does not fail. -/
theorem State.Reads.events {queued : List OfflineEvent} (h : s.Reads o False (.ok queued))
    (stored : s.stored o.queueKey = textOf es) (filed : Filed es) :
    es.mapM OfflineEvent.reread? = some queued := by
  rcases h with h | ⟨fails, _⟩
  · rw [stored] at h
    exact (queueOf_textOf filed).mp h.symm
  · exact fails.elim

/-- Wherever a call comes, it finds what it relies on there. -/
theorem Moves.fits (h : Moves o False s stage s' stage') (stored : s.stored o.queueKey = textOf es)
    (filed : Filed es) (stems : Stems accepted es) (fits : stage.Fits accepted es) :
    stage'.Fits accepted es := by
  cases h with
  | enter | paused => exact fits
  | wipe => exact ⟨trivial, rfl⟩
  | unreadable | nothing | written | unwritten => trivial
  | append reads now =>
    exact ⟨trivial, _, _, reads.events stored filed, fun _ hf => lt_nextStamp now _ hf, rfl⟩
  | snapshot reads =>
    have read := reads.events stored filed
    exact ⟨⟨keys_of_reread read ▸ List.prefix_rfl, stems.reread read⟩, [], rfl, .empty⟩
  | merge reads => exact ⟨fits, _, reads.events stored filed, rfl⟩
  | replayed r | resting r =>
    obtain ⟨seen, replayed, rfl, settled⟩ := fits
    exact ⟨seen, replayed ++ [_], by simp, settled.after _ r⟩
  | through r =>
    obtain ⟨seen, replayed, rfl, settled⟩ := fits
    exact ⟨seen, settled.after _ r⟩

/-! ### Accounts -/

end Call

def Call.events : Call → List OfflineEvent
  | .enqueue e => [e]
  | _ => []

/-- The event that the call has got accepted. -/
def Stage.accepted (c : Call) : Stage → List OfflineEvent
  | .finished (.queued (.ok _)) _ => c.events
  | _ => []

/-- The events that the call has replayed with success, if it is a pass that is complete. -/
def Stage.delivered : Stage → List OfflineEvent
  | .finished (.replayed (.ok (some _))) sent => sent
  | _ => []

def queuedIn (ws : List Worker) : List OfflineEvent := ws.flatMap (·.call.events)

def acceptedIn (ws : List Worker) : List OfflineEvent := ws.flatMap fun w => w.stage.accepted w.call

def deliveredIn (ws : List Worker) : List OfflineEvent := ws.flatMap (·.stage.delivered)

/-- The call is not on any account. -/
structure Stage.Quiet (stage : Stage) (c : Call) : Prop where
  accepted : stage.accepted c = []
  delivered : stage.delivered = []

section Accounts

variable {o : OfflineSettings} {s s' : State} {stage stage' : Stage} {c : Call}
  {before after : List Worker} {w w' : Worker} {e : OfflineEvent}

theorem Stage.quiet_of_busy (h : stage.isFinished = false) : stage.Quiet c := by
  cases stage with
  | finished => cases h
  | _ => exact ⟨rfl, rfl⟩

theorem Section.refusal_quiet (sec : Section) (f : OfflineError) (sent : List OfflineEvent) :
    (Stage.finished (sec.refusal f) sent).Quiet c := by
  cases sec <;> exact ⟨rfl, rfl⟩

theorem Begins.quiet (h : Begins o s c s' stage) : stage.Quiet c := by
  induction h with
  | back _ replays _ => cases replays <;> exact ⟨rfl, rfl⟩
  | _ => exact ⟨rfl, rfl⟩

theorem Moves.busy {mayFail : Prop} (h : Moves o mayFail s stage s' stage') :
    stage.isFinished = false := by
  cases h <;> rfl

/-- Only writing changes what is stored, or gets on an account. -/
theorem Moves.quiet_or_written (h : Moves o False s stage s' stage') :
    (s'.stored = s.stored ∧ stage'.Quiet c) ∨
      ∃ sec ticket es, stage = .writing sec ticket es ∧ s' = sec.leave ticket (s.saved o es) ∧
        stage' = .finished sec.success sec.sent := by
  cases h with
  | unreadable => exact .inl ⟨Section.leave_stored _ _ _, Section.refusal_quiet _ _ _⟩
  | written => exact .inr ⟨_, _, _, rfl, rfl, rfl⟩
  | unwritten fails => exact fails.elim
  | _ => exact .inl ⟨rfl, rfl, rfl⟩

theorem mem_acceptedIn :
    e ∈ acceptedIn (before ++ w :: after) ↔
      e ∈ w.stage.accepted w.call ∨ e ∈ acceptedIn (before ++ after) := by
  simp [acceptedIn, or_left_comm]

theorem mem_deliveredIn :
    e ∈ deliveredIn (before ++ w :: after) ↔
      e ∈ w.stage.delivered ∨ e ∈ deliveredIn (before ++ after) := by
  simp [deliveredIn, or_left_comm]

theorem acceptedIn_subset (ws : List Worker) : acceptedIn ws ⊆ queuedIn ws := by
  intro e he
  obtain ⟨w, hw, he⟩ := List.mem_flatMap.mp he
  refine List.mem_flatMap.mpr ⟨w, hw, ?_⟩
  unfold Stage.accepted at he
  split at he
  · exact he
  · cases he

/-- The event of one call has an id that no other call has. -/
theorem fresh_id (distinct : ((queuedIn (before ++ w :: after)).map (·.id)).Nodup)
    (hw : w.call = .enqueue e) : e.id ∉ (acceptedIn (before ++ after)).map (·.id) := by
  have first : (queuedIn (before ++ w :: after)).Perm (e :: queuedIn (before ++ after)) := by
    simp [queuedIn, hw, Call.events]
  have nodup := ((first.map (·.id)).nodup_iff.mp distinct)
  exact fun hmem => (List.nodup_cons.mp nodup).1
    (List.map_subset _ (acceptedIn_subset _) hmem)

end Accounts

/-! ### The crew -/

/-- What is stored, after all that the calls have done. -/
structure Crew.Keeps (o : OfflineSettings) (k : Crew) (es : List OfflineEvent) : Prop where
  stored : k.state.stored o.queueKey = textOf es
  filed : Filed es
  stems : Stems (acceptedIn k.workers) es
  /-- An accepted event is stored, or a completed pass has delivered it. -/
  complete : ∀ e ∈ acceptedIn k.workers,
    e.id ∈ es.map (·.id) ∨ e.id ∈ (deliveredIn k.workers).map (·.id)
  apart : ∀ f ∈ es, f.id ∉ (deliveredIn k.workers).map (·.id)
  sent : ∀ f ∈ deliveredIn k.workers, f.id ∈ (acceptedIn k.workers).map (·.id)
  of : ∀ w ∈ k.workers, w.stage.Of w.call
  fits : ∀ w ∈ k.workers, w.gone = false → w.stage.Fits (acceptedIn k.workers) es

namespace Crew

variable {o : OfflineSettings} {s s' : State} {stage stage' : Stage} {c : Call}
  {before after : List Worker} {w w' : Worker} {es : List OfflineEvent}

/-- What is stored, and the accounts, stay the same while a call does nothing of interest. -/
theorem Keeps.quiet (h : Keeps o ⟨s, before ++ w :: after⟩ es) (same : s'.stored = s.stored)
    (quiet : w.stage.Quiet w.call) (quiet' : w'.stage.Quiet w'.call) (hof : w'.stage.Of w'.call)
    (fits : w'.gone = false → w'.stage.Fits (acceptedIn (before ++ w :: after)) es) :
    Keeps o ⟨s', before ++ w' :: after⟩ es := by
  have accepted : acceptedIn (before ++ w' :: after) = acceptedIn (before ++ w :: after) := by
    simp [acceptedIn, quiet.accepted, quiet'.accepted]
  have delivered : deliveredIn (before ++ w' :: after) = deliveredIn (before ++ w :: after) := by
    simp [deliveredIn, quiet.delivered, quiet'.delivered]
  refine ⟨same ▸ h.stored, h.filed, accepted ▸ h.stems, ?_, delivered ▸ h.apart, ?_, ?_, ?_⟩
  · rw [accepted, delivered]
    exact h.complete
  · rw [accepted, delivered]
    exact h.sent
  · intro v hv
    rcases mem_crew.mp hv with rfl | other
    · exact hof
    · exact h.of v (mem_crew.mpr (.inr other))
  · intro v hv live
    rw [accepted]
    rcases mem_crew.mp hv with rfl | other
    · exact fits live
    · exact h.fits v (mem_crew.mpr (.inr other)) live

theorem Keeps.begin {ws : List Worker} (h : Keeps o ⟨s, ws⟩ es) (begins : Begins o s c s' stage) :
    Keeps o ⟨s', ws ++ [⟨c, stage, false⟩]⟩ es := by
  have accepted : acceptedIn (ws ++ [⟨c, stage, false⟩]) = acceptedIn ws := by
    simp [acceptedIn, begins.quiet.accepted]
  have delivered : deliveredIn (ws ++ [⟨c, stage, false⟩]) = deliveredIn ws := by
    simp [deliveredIn, (begins.quiet (c := c)).delivered]
  refine ⟨begins.stored ▸ h.stored, h.filed, accepted ▸ h.stems, ?_, delivered ▸ h.apart, ?_, ?_, ?_⟩
  · rw [accepted, delivered]
    exact h.complete
  · rw [accepted, delivered]
    exact h.sent
  · intro v hv
    rcases List.mem_append.mp hv with old | new
    · exact h.of v old
    · obtain rfl := List.mem_singleton.mp new
      exact begins.of
  · intro v hv live
    rw [accepted]
    rcases List.mem_append.mp hv with old | new
    · exact h.fits v old live
    · obtain rfl := List.mem_singleton.mp new
      exact begins.fits

/-- An event is written behind the others. -/
theorem Keeps.appended {e : OfflineEvent} {ticket : Nat} {out : List OfflineEvent}
    (h : Keeps o ⟨s, before ++ w :: after⟩ es) (orderly : Orderly ⟨s, before ++ w :: after⟩)
    (distinct : ((queuedIn (before ++ w :: after)).map (·.id)).Nodup)
    (hw : w = ⟨.enqueue e, .writing (.append e) ticket out, false⟩)
    (hw' : w' = ⟨.enqueue e, .finished (.queued (.ok e.id)) [], false⟩) :
    Keeps o ⟨(Section.append e).leave ticket (s.saved o out), before ++ w' :: after⟩ out := by
  have stands := congrArg Worker.stage hw
  have fits := h.fits w (mem_crew.mpr (.inl rfl)) (by rw [hw])
  rw [stands] at fits
  obtain ⟨-, queued, stamp, read, later, hout⟩ := fits
  have same := keys_of_reread read
  have ids : out.map (·.id) = es.map (·.id) ++ [e.id] := by
    rw [hout, List.map_append, map_id_of_keys same]
    rfl
  -- Until now the event is on no account, so its id is on none.
  have others : acceptedIn (before ++ w :: after) = acceptedIn (before ++ after) := by
    simp [acceptedIn, hw, Stage.accepted]
  have delivered : deliveredIn (before ++ w' :: after) = deliveredIn (before ++ w :: after) := by
    simp [deliveredIn, hw, hw', Stage.delivered]
  have fresh : e.id ∉ (acceptedIn (before ++ w :: after)).map (·.id) :=
    others ▸ fresh_id distinct (by rw [hw])
  have unstored : e.id ∉ es.map (·.id) := fun hmem => by
    obtain ⟨f, hf, hid⟩ := List.mem_map.mp hmem
    obtain ⟨a, ha, descends⟩ := h.stems f hf
    exact fresh (List.mem_map.mpr ⟨a, ha, descends.id_eq.symm.trans hid⟩)
  have undelivered : e.id ∉ (deliveredIn (before ++ w :: after)).map (·.id) := fun hmem => by
    obtain ⟨f, hf, hid⟩ := List.mem_map.mp hmem
    exact fresh (hid ▸ h.sent f hf)
  have more : acceptedIn (before ++ w :: after) ⊆ acceptedIn (before ++ w' :: after) :=
    fun a ha => mem_acceptedIn.mpr (.inr (others ▸ ha))
  have here : w'.stage.accepted w'.call = [e] := by
    rw [hw']
    rfl
  constructor
  · rw [Section.leave_stored]
    simp [State.saved, State.put, textOf]
  · rw [hout]
    exact (h.filed.congr same).append (map_id_of_keys same ▸ unstored) later
  · rw [hout]
    intro f hf
    rcases List.mem_append.mp hf with old | new
    · exact (h.stems.reread read).mono more (fun _ hf => hf) f old
    · obtain rfl := List.mem_singleton.mp new
      exact ⟨e, mem_acceptedIn.mpr (.inl (here ▸ List.mem_singleton_self e)), .stamped stamp⟩
  · intro a ha
    rw [delivered, ids]
    rcases mem_acceptedIn.mp ha with new | old
    · obtain rfl := List.mem_singleton.mp (here ▸ new)
      exact .inl (List.mem_append_right _ (List.mem_singleton_self _))
    · exact (h.complete a (others ▸ old)).imp_left (List.mem_append_left _)
  · intro f hf
    rw [delivered]
    rcases List.mem_append.mp (ids ▸ List.mem_map_of_mem hf) with old | new
    · obtain ⟨g, hg, hid⟩ := List.mem_map.mp old
      exact hid ▸ h.apart g hg
    · exact List.mem_singleton.mp new ▸ undelivered
  · intro f hf
    exact List.map_subset _ more (h.sent f (delivered ▸ hf))
  · intro v hv
    rcases mem_crew.mp hv with rfl | other
    · rw [hw']
      exact ⟨e, rfl, rfl⟩
    · exact h.of v (mem_crew.mpr (.inr other))
  · intro v hv live
    rcases mem_crew.mp hv with rfl | other
    · rw [hw']
      trivial
    · subst hw
      have outside := orderly.alone_inside (List.cons_ne_nil _ _) v other
      rw [Worker.still, live] at outside
      refine (h.fits v (mem_crew.mpr (.inr other)) live).grow outside more ?_
      rw [hout, List.map_append, same]
      exact List.prefix_append _ _

/-- A pass writes back what it has left. -/
theorem Keeps.merged {pass used ticket : Nat} {seen sent out : List OfflineEvent} {p : Pass}
    (h : Keeps o ⟨s, before ++ w :: after⟩ es) (orderly : Orderly ⟨s, before ++ w :: after⟩)
    (hw : w = ⟨c, .writing (.merge pass used seen sent p) ticket out, false⟩)
    (hw' : w' = ⟨c, .finished (.replayed (.ok (some p.report))) sent, false⟩) :
    Keeps o ⟨(Section.merge pass used seen sent p).leave ticket (s.saved o out),
      before ++ w' :: after⟩ out := by
  have stands := congrArg Worker.stage hw
  have fits := h.fits w (mem_crew.mpr (.inl rfl)) (by rw [hw])
  rw [stands] at fits
  obtain ⟨⟨seenOf, settled⟩, queued, read, hout⟩ := fits
  obtain ⟨new, left, filed, hnew, ids⟩ := settled.remaining seenOf h.filed read
  rw [left] at hout
  rw [← hout, List.map_append] at ids
  have accepted : acceptedIn (before ++ w' :: after) = acceptedIn (before ++ w :: after) := by
    simp [acceptedIn, hw, hw', Stage.accepted]
  have others : deliveredIn (before ++ w :: after) = deliveredIn (before ++ after) := by
    simp [deliveredIn, hw, Stage.delivered]
  have here : w'.stage.delivered = sent := by rw [hw']; rfl
  have delivered (id : String) : id ∈ (deliveredIn (before ++ w' :: after)).map (·.id) ↔
      id ∈ sent.map (·.id) ∨ id ∈ (deliveredIn (before ++ w :: after)).map (·.id) := by
    simp only [List.mem_map, mem_deliveredIn (w := w'), here, others, or_and_right, exists_or]
  have unsent := (List.nodup_append.mp (ids.nodup_iff.mpr h.filed.ids)).2.2
  constructor
  · rw [Section.leave_stored]
    simp [State.saved, State.put, textOf]
  · exact hout ▸ filed
  · rw [accepted, hout]
    intro f hf
    rcases List.mem_append.mp hf with failed | later
    · exact seenOf.stems f (settled.failed.subset failed)
    · exact h.stems.reread read f (hnew later)
  · intro a ha
    rw [delivered]
    rcases h.complete a (accepted ▸ ha) with stored | done
    · exact (List.mem_append.mp (ids.mem_iff.mpr stored)).imp_right .inl
    · exact .inr (.inr done)
  · intro f hf hmem
    have stored := List.mem_map_of_mem (f := (·.id)) hf
    rcases (delivered f.id).mp hmem with mine | done
    · exact unsent f.id stored f.id mine rfl
    · obtain ⟨g, hg, hid⟩ := List.mem_map.mp (ids.mem_iff.mp (List.mem_append_left _ stored))
      exact h.apart g hg (hid ▸ done)
  · intro f hf
    rw [accepted]
    rcases mem_deliveredIn.mp hf with mine | done
    · have hseen : f ∈ seen := settled.each.subset (List.mem_append_right _ (here ▸ mine))
      obtain ⟨e, he, descends⟩ := seenOf.stems f hseen
      exact descends.id_eq ▸ List.mem_map_of_mem he
    · exact h.sent f (others ▸ done)
  · intro v hv
    rcases mem_crew.mp hv with rfl | other
    · rw [hw']
      trivial
    · exact h.of v (mem_crew.mpr (.inr other))
  · intro v hv live
    rcases mem_crew.mp hv with rfl | other
    · rw [hw']
      trivial
    · subst hw
      have outside := orderly.alone_inside (List.cons_ne_nil _ _) v other
      have idle := orderly.alone_passing (List.cons_ne_nil _ _) v other
      rw [Worker.still, live] at outside idle
      exact Stage.fits_of_idle outside idle

end Crew

/-- One step of a crew, in which no call clears the queue. -/
theorem Crew.Step.keeps {o : OfflineSettings} {k k' : Crew} {es : List OfflineEvent}
    (step : Crew.Step o False k k') (h : k.Keeps o es) (orderly : k.Orderly)
    (distinct : ((queuedIn k'.workers).map (·.id)).Nodup)
    (kept : ∀ w ∈ k'.workers, w.call ≠ .clear) : ∃ es', k'.Keeps o es' := by
  cases step with
  | begin begins => exact ⟨es, h.begin begins⟩
  | @leave s before after c stage busy =>
    have quiet := Stage.quiet_of_busy (c := c) busy
    have hof := h.of ⟨c, stage, false⟩ (mem_crew.mpr (.inl rfl))
    exact ⟨es, h.quiet (stage.undone_stored s) quiet quiet hof nofun⟩
  | @move s s' before after c stage stage' moves =>
    have hof := h.of ⟨c, stage, false⟩ (mem_crew.mpr (.inl rfl))
    have fits := h.fits ⟨c, stage, false⟩ (mem_crew.mpr (.inl rfl)) rfl
    rcases moves.quiet_or_written (c := c) with ⟨same, quiet⟩ | ⟨sec, ticket, out, rfl, rfl, rfl⟩
    · exact ⟨es, h.quiet same (Stage.quiet_of_busy moves.busy) quiet (moves.of hof) fun _ =>
        moves.fits h.stored h.filed h.stems fits⟩
    · cases sec with
      | append e =>
        obtain rfl : c = .enqueue e := hof
        refine ⟨out, h.appended orderly ?_ rfl rfl⟩
        simpa [queuedIn] using distinct
      | wipe => exact absurd hof (kept ⟨c, .finished _ _, false⟩ (mem_crew.mpr (.inl rfl)))
      | snapshot => exact fits.2.elim
      | merge => exact ⟨out, h.merged orderly rfl rfl⟩

theorem Crew.Step.calls {o : OfflineSettings} {mayFail : Prop} {k k' : Crew}
    (step : Crew.Step o mayFail k k') :
    k.workers.map (·.call) <+: k'.workers.map (·.call) := by
  cases step <;> simp

theorem queuedIn_eq (ws : List Worker) : queuedIn ws = (ws.map (·.call)).flatMap Call.events := by
  rw [queuedIn, List.flatMap_map]

/-- Along every run, wherever it stands. -/
theorem Crew.Reachable.keeps {o : OfflineSettings} {s₀ : State} (fresh : s₀.Fresh o) {k : Crew}
    (h : Crew.Reachable o False s₀ k) :
    ((queuedIn k.workers).map (·.id)).Nodup → (∀ w ∈ k.workers, w.call ≠ .clear) →
      ∃ es, k.Keeps o es := by
  induction h with
  | refl =>
    intro _ _
    refine ⟨[], fresh.stored, ⟨by simp, by simp⟩, ?_, ?_, ?_, ?_, ?_, ?_⟩ <;>
      simp [Stems, acceptedIn, deliveredIn]
  | @tail k k' reached step ih =>
    intro distinct kept
    have calls := step.calls
    have before : ((queuedIn k.workers).map (·.id)).Nodup := by
      obtain ⟨later, hlater⟩ := calls
      rw [queuedIn_eq, ← hlater, List.flatMap_append, List.map_append, ← queuedIn_eq] at distinct
      exact (List.nodup_append.mp distinct).1
    obtain ⟨es, keeps⟩ := ih before fun w hw => by
      obtain ⟨w', hw', same⟩ := List.mem_map.mp (calls.subset (List.mem_map_of_mem hw))
      exact same ▸ kept w' hw'
    exact step.keeps keeps (Crew.Reachable.orderly reached fresh) distinct kept

/-! ### Pools -/

/-- The call has got its event accepted. -/
def Accepted (t : Thread interface Call Outcome) (e : OfflineEvent) : Prop :=
  t.call = .enqueue e ∧ t.process = .done (.queued (.ok e.id))

theorem Stage.process_done {o : OfflineSettings} {stage : Stage} {outcome : Outcome}
    (h : stage.process o = .done outcome) : ∃ sent, stage = .finished outcome sent := by
  cases stage with
  | finished outcome' sent =>
    cases h
    exact ⟨sent, rfl⟩
  | waiting | pausing => cases h
  | replaying => simp [process, replayAll_bind_cons] at h
  | reading sec ticket => cases sec <;> cases h
  | writing sec ticket es => cases es <;> cases h

namespace Worker.Describes

variable {o : OfflineSettings} {w : Worker} {e : OfflineEvent} {t : Thread interface Call Outcome}

end Worker.Describes

section Pools

variable {o : OfflineSettings} {ws : List Worker} {ts : List (Thread interface Call Outcome)}
  {e : OfflineEvent}

end Pools

end ScreenFlow.OfflineQueue

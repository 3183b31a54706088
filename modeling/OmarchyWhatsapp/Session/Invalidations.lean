import OmarchyWhatsapp.Relational.Log
import OmarchyWhatsapp.Relational.Run
import OmarchyWhatsapp.Relational.Table
import OmarchyWhatsapp.Shell.Service

/-!
# Coalesced invalidations

The first `schedule` of a key publishes at once and opens a window, the others only mark the
window. A drainer sleeps through the window and publishes once more if it is marked. `record` and
`finish` run under the lock, publishing does not: a step of another task can come in between.
-/

namespace OmarchyWhatsapp

open Relational

/-- A local snapshot that the shell has to reload. -/
inductive Invalidation where
  | chats
  | messages (chatJid : String)
  | unread
deriving DecidableEq, Repr

def Invalidation.key : Invalidation → String
  | .chats => "chats"
  | .messages chatJid => "messages:" ++ chatJid
  | .unread => "unread"

/-- A drainer publishes the same as every call that has its key. -/
theorem Invalidation.key_injective : Function.Injective key := by
  have hmessages (chatJid : String) : "messages:".toList <+: (key (.messages chatJid)).toList := by
    rw [key, String.toList_append]
    exact List.prefix_append _ _
  intro i i' h
  cases i with
  | chats =>
    cases i' with
    | chats => rfl
    | messages chatJid => exact absurd (h ▸ hmessages chatJid) (by decide)
    | unread => exact absurd h (by decide)
  | messages chatJid =>
    cases i' with
    | chats => exact absurd (h ▸ hmessages chatJid) (by decide)
    | messages chatJid' =>
      have hjid := congrArg String.toList h
      rw [key, key, String.toList_append, String.toList_append, List.append_cancel_left_eq] at hjid
      rw [String.toList_inj.mp hjid]
    | unread => exact absurd (h ▸ hmessages chatJid) (by decide)
  | unread =>
    cases i' with
    | chats => exact absurd h (by decide)
    | messages chatJid => exact absurd (h ▸ hmessages chatJid) (by decide)
    | unread => rfl

/-- What `publish` sends; there is no total if the database cannot be read. -/
def Invalidation.event (unreadTotal : Option ℕ) : Invalidation → Option ServerEvent
  | .chats => some (.invalidated .chats none)
  | .messages chatJid => some (.invalidated .messages (some chatJid))
  | .unread => unreadTotal.map .unread

/-! ## Windows -/

/-- A window, and whether a publish is due at its end. -/
structure InvalidationWindow where
  key : String
  trailing : Bool
deriving DecidableEq, Repr

structure InvalidationCoalescer where
  windows : Table InvalidationWindow InvalidationWindow.key := ∅

namespace InvalidationCoalescer

def mark (c : InvalidationCoalescer) (key : String) (trailing : Bool) : InvalidationCoalescer where
  windows := c.windows.updateWhere (fun w => w.key = key) (fun w => { w with trailing })

def record (c : InvalidationCoalescer) (key : String) : InvalidationCoalescer × Bool :=
  match c.windows.find? key with
  | some _ => (c.mark key true, false)
  | none => ({ windows := c.windows.insertOrIgnore ⟨key, false⟩ }, true)

def finish (c : InvalidationCoalescer) (key : String) : InvalidationCoalescer × Bool :=
  match c.windows.find? key with
  | none => (c, false)
  | some window =>
    if window.trailing then (c.mark key false, true)
    else ({ windows := c.windows.deleteWhere (fun w => w.key = key) }, false)

def cancel (c : InvalidationCoalescer) (key : String) : InvalidationCoalescer :=
  { windows := c.windows.deleteWhere (fun w => w.key = key) }

/-- The window of a key, if it is open. -/
def window (c : InvalidationCoalescer) (key : String) : Option Bool :=
  (c.windows.find? key).map (·.trailing)

variable (c : InvalidationCoalescer) (key k : String)

theorem window_mark (trailing : Bool) : (c.mark key trailing).window k
    = if k = key then (c.window key).map (fun _ => trailing) else c.window k := by
  unfold window mark
  rw [Table.find?_updateWhere]
  split
  · subst k
    cases hfound : c.windows.find? key with
    | none => rfl
    | some w => simp [Table.key_of_find? hfound]
  · rename_i hne
    cases hfound : c.windows.find? k with
    | none => rfl
    | some w =>
      have hkey : w.key ≠ key := fun h => hne (Table.key_of_find? hfound ▸ h)
      simp [hkey]

theorem window_record :
    (c.record key).1.window k = (if k = key then some (c.window key).isSome else c.window k) ∧
      (c.record key).2 = (c.window key).isNone := by
  unfold record
  split
  · rename_i w hfound
    have hopen : c.window key = some w.trailing := by rw [window, hfound]; rfl
    rw [window_mark, hopen]
    exact ⟨rfl, rfl⟩
  · rename_i hfound
    have hopen : c.window key = none := by rw [window, hfound]; rfl
    refine ⟨?_, by rw [hopen]; rfl⟩
    rw [hopen, window, Table.find?_insertOrIgnore]
    dsimp only
    split
    · subst k
      rw [hfound]
      rfl
    · rfl

theorem window_deleteWhere :
    window { windows := c.windows.deleteWhere (fun w => w.key = key) } k
      = if k = key then none else c.window k := by
  unfold window
  rw [Table.find?_deleteWhere_key]
  split <;> rfl

theorem window_finish :
    (c.finish key).1.window k = (if k = key then
        if c.window key = some true then some false else none
      else c.window k) ∧
      (c.finish key).2 = decide (c.window key = some true) := by
  unfold finish
  split
  · rename_i hfound
    have hopen : c.window key = none := by rw [window, hfound]; rfl
    rw [hopen]
    refine ⟨?_, rfl⟩
    split
    · subst k
      exact hopen
    · rfl
  · rename_i w hfound
    have hopen : c.window key = some w.trailing := by rw [window, hfound]; rfl
    split
    · rename_i htrailing
      rw [window_mark, hopen, htrailing]
      exact ⟨rfl, rfl⟩
    · rename_i htrailing
      rw [window_deleteWhere, hopen, Bool.eq_false_of_not_eq_true htrailing]
      exact ⟨rfl, rfl⟩

theorem window_cancel : (c.cancel key).window k = if k = key then none else c.window k :=
  window_deleteWhere c key k

end InvalidationCoalescer

/-! ## The tasks -/

inductive InvalidationPhase where
  /-- `schedule` owns the new window and is about to publish; `runtime` says whether its thread is
  in the runtime. -/
  | leading (runtime : Bool)
  /-- It has published, and is about to spawn the drainer or to cancel the window. -/
  | published (runtime : Bool)
  /-- The drainer sleeps through a window. -/
  | sleeping
  /-- The drainer has finished a marked window and is about to publish. -/
  | trailing
deriving DecidableEq, Repr

structure InvalidationTask where
  invalidation : Invalidation
  phase : InvalidationPhase
deriving DecidableEq, Repr

def InvalidationTask.key (t : InvalidationTask) : String := t.invalidation.key

inductive InvalidationEvent where
  | scheduled (key : String)
  /-- A window opens. -/
  | opened (key : String)
  | published (key : String) (event : Option ServerEvent)
deriving DecidableEq, Repr

namespace InvalidationEvent

def isScheduled (key : String) : InvalidationEvent → Bool
  | .scheduled key' => key' = key
  | _ => false

def isOpened (key : String) : InvalidationEvent → Bool
  | .opened key' => key' = key
  | _ => false

def isPublished (key : String) : InvalidationEvent → Bool
  | .published key' _ => key' = key
  | _ => false

end InvalidationEvent

structure InvalidationBroadcaster where
  state : InvalidationCoalescer := {}
  tasks : List InvalidationTask := []
  /-- Newest first. -/
  log : List InvalidationEvent := []

inductive InvalidationStep where
  /-- The `record` of `schedule`. -/
  | schedule (invalidation : Invalidation) (runtime : Bool)
  | publish (task : InvalidationTask) (unreadTotal : Option ℕ)
  /-- The end of `schedule`. -/
  | spawn (task : InvalidationTask)
  /-- The window of a drainer is over. -/
  | expire (task : InvalidationTask)

namespace InvalidationBroadcaster

def moveTo (s : InvalidationBroadcaster) (t : InvalidationTask) (phase : InvalidationPhase) :
    InvalidationBroadcaster :=
  { s with tasks := { t with phase } :: s.tasks.erase t }

def record (s : InvalidationBroadcaster) (event : InvalidationEvent) : InvalidationBroadcaster :=
  { s with log := event :: s.log }

def step (s : InvalidationBroadcaster) : InvalidationStep → InvalidationBroadcaster
  | .schedule invalidation runtime =>
    let key := invalidation.key
    let (state, leading) := s.state.record key
    let s := { s with state }.record (.scheduled key)
    if leading then
      { s with tasks := ⟨invalidation, .leading runtime⟩ :: s.tasks }.record (.opened key)
    else s
  | .publish t unreadTotal =>
    if t ∈ s.tasks then
      match t.phase with
      | .leading runtime =>
        (s.moveTo t (.published runtime)).record
          (.published t.key (t.invalidation.event unreadTotal))
      | .trailing =>
        (s.moveTo t .sleeping).record (.published t.key (t.invalidation.event unreadTotal))
      | _ => s
    else s
  | .spawn t =>
    if t ∈ s.tasks then
      match t.phase with
      | .published true => s.moveTo t .sleeping
      | .published false => { s with state := s.state.cancel t.key, tasks := s.tasks.erase t }
      | _ => s
    else s
  | .expire t =>
    if t ∈ s.tasks ∧ t.phase = .sleeping then
      let (state, due) := s.state.finish t.key
      if due then ({ s with state }.moveTo t .trailing).record (.opened t.key)
      else { s with state, tasks := s.tasks.erase t }
    else s

/-! ## One key -/

def tasksFor (s : InvalidationBroadcaster) (key : String) : List InvalidationTask :=
  s.tasks.filter (fun t => t.key = key)

/-- The drainers of a key that are alive. -/
def drainers (s : InvalidationBroadcaster) (key : String) : List InvalidationTask :=
  (s.tasksFor key).filter (fun t => t.phase = .sleeping || t.phase = .trailing)

/-- The key was published after it was last scheduled. -/
def Current (s : InvalidationBroadcaster) (key : String) : Prop :=
  Answered (InvalidationEvent.isScheduled key) (InvalidationEvent.isPublished key) s.log

/-- How often the key was published since its last window opened. -/
def publishes (s : InvalidationBroadcaster) (key : String) : ℕ :=
  countSince (InvalidationEvent.isOpened key) (InvalidationEvent.isPublished key) s.log

structure LosesNothing (s : InvalidationBroadcaster) (key : String) : Prop where
  oneDrainer : (s.drainers key).length ≤ 1
  oncePerWindow : s.publishes key ≤ 1
  current : s.state.window key = none → s.Current key

end InvalidationBroadcaster

/-- The key that a step is about. -/
def InvalidationStep.key : InvalidationStep → String
  | .schedule invalidation _ => invalidation.key
  | .publish t _ | .spawn t | .expire t => t.key

def InvalidationStep.inRuntime : InvalidationStep → Bool
  | .schedule _ runtime => runtime
  | _ => true

namespace InvalidationPhase

/-- A publish is due in this phase. -/
def due : InvalidationPhase → Bool
  | .leading _ | .trailing => true
  | _ => false

def inRuntime : InvalidationPhase → Bool
  | .leading runtime | .published runtime => runtime
  | _ => true

end InvalidationPhase

/-- The window, the tasks and the log of one key: an open window has one task, which is about to
publish for the first time in it, or has the window to wait for. -/
inductive Coalesced (current : Prop) (publishes : ℕ) : Option Bool → List InvalidationTask → Prop
  | closed (hcurrent : current) (honce : publishes ≤ 1) : Coalesced current publishes none []
  | due {trailing : Bool} {t : InvalidationTask} (hruntime : t.phase.inRuntime = true)
      (hdue : t.phase.due = true) (hnone : publishes = 0) :
      Coalesced current publishes (some trailing) [t]
  | waiting {trailing : Bool} {t : InvalidationTask} (hruntime : t.phase.inRuntime = true)
      (hdue : t.phase.due = false) (hcurrent : trailing = true ∨ current)
      (honce : publishes ≤ 1) : Coalesced current publishes (some trailing) [t]

namespace InvalidationBroadcaster

variable {s : InvalidationBroadcaster} {key : String} {t : InvalidationTask}

def CoalescedAt (s : InvalidationBroadcaster) (key : String) : Prop :=
  Coalesced (s.Current key) (s.publishes key) (s.state.window key) (s.tasksFor key)

theorem CoalescedAt.losesNothing (h : s.CoalescedAt key) : s.LosesNothing key := by
  have hlength : (s.drainers key).length ≤ (s.tasksFor key).length := List.length_filter_le _ _
  unfold CoalescedAt at h
  generalize hwindow : s.state.window key = window at h
  generalize s.tasksFor key = tasks at h hlength
  cases h with
  | closed hcurrent honce =>
    exact ⟨Nat.le_trans hlength (Nat.zero_le 1), honce, fun _ => hcurrent⟩
  | due _ _ hnone =>
    refine ⟨hlength, by omega, fun hclosed => ?_⟩
    rw [hwindow] at hclosed
    cases hclosed
  | waiting _ _ _ honce =>
    refine ⟨hlength, honce, fun hclosed => ?_⟩
    rw [hwindow] at hclosed
    cases hclosed

theorem mem_tasksFor : t ∈ s.tasksFor key ↔ t ∈ s.tasks ∧ t.key = key := by
  rw [tasksFor, List.mem_filter, decide_eq_true_iff]

/-- The tasks of a key, without one task. -/
theorem filter_erase (t : InvalidationTask) (key : String) :
    (s.tasks.erase t).filter (fun t => t.key = key) = (s.tasksFor key).erase t :=
  List.erase_filter.symm

theorem tasksFor_moveTo (t : InvalidationTask) (phase : InvalidationPhase) (key : String) :
    (s.moveTo t phase).tasksFor key
      = if t.key = key then { t with phase } :: (s.tasksFor key).erase t else s.tasksFor key := by
  have hkey : InvalidationTask.key { t with phase } = t.key := rfl
  rw [tasksFor, moveTo, List.filter_cons, filter_erase, hkey]
  split
  · rename_i h
    rw [if_pos (of_decide_eq_true h)]
  · rename_i h
    rw [decide_eq_true_iff] at h
    rw [if_neg h, List.erase_of_not_mem]
    exact fun hmem => h (mem_tasksFor.mp hmem).2

/-! ## Steps and runs -/

/-- The task of a step is the only one of its key. -/
theorem CoalescedAt.alone (h : s.CoalescedAt t.key) (ht : t ∈ s.tasks) :
    s.tasksFor t.key = [t] := by
  have hmem : t ∈ s.tasksFor t.key := mem_tasksFor.mpr ⟨ht, rfl⟩
  unfold CoalescedAt at h
  generalize s.state.window t.key = window at h
  generalize s.tasksFor t.key = tasks at h hmem
  cases h with
  | closed => cases hmem
  | due | waiting => rw [List.mem_singleton.mp hmem]

/-- What a step leaves of another key. -/
theorem CoalescedAt.frame (h : s.CoalescedAt key) {s' : InvalidationBroadcaster}
    (hwindow : s'.state.window key = s.state.window key)
    (htasks : s'.tasksFor key = s.tasksFor key)
    (hcurrent : s'.Current key ↔ s.Current key)
    (hpublishes : s'.publishes key = s.publishes key) : s'.CoalescedAt key := by
  unfold CoalescedAt
  rw [hwindow, htasks, propext hcurrent, hpublishes]
  exact h

/-- An event of another key. -/
theorem CoalescedAt.record (h : s.CoalescedAt key) {event : InvalidationEvent}
    (hscheduled : event.isScheduled key = false) (hopened : event.isOpened key = false)
    (hpublished : event.isPublished key = false) : (s.record event).CoalescedAt key :=
  h.frame rfl rfl (Answered.cons_iff hscheduled hpublished) (countSince_skip hopened hpublished)

/-- Another task goes on. -/
theorem CoalescedAt.moveTo (h : s.CoalescedAt key) (hne : t.key ≠ key)
    (phase : InvalidationPhase) : (s.moveTo t phase).CoalescedAt key :=
  h.frame rfl (by rw [tasksFor_moveTo, if_neg hne]) Iff.rfl rfl

theorem CoalescedAt.erase (h : s.CoalescedAt key) (hne : t.key ≠ key) :
    { s with tasks := s.tasks.erase t }.CoalescedAt key := by
  refine h.frame rfl ?_ Iff.rfl rfl
  rw [tasksFor, filter_erase, List.erase_of_not_mem]
  exact fun hmem => hne (mem_tasksFor.mp hmem).2

theorem CoalescedAt.setState (h : s.CoalescedAt key) {state : InvalidationCoalescer}
    (hwindow : state.window key = s.state.window key) : { s with state }.CoalescedAt key :=
  h.frame hwindow rfl Iff.rfl rfl

/-- A step on one key leaves the others alone. -/
theorem CoalescedAt.step_of_ne (h : s.CoalescedAt key) {a : InvalidationStep}
    (hne : a.key ≠ key) : (s.step a).CoalescedAt key := by
  cases a with
  | schedule invalidation runtime =>
    replace hne : invalidation.key ≠ key := hne
    have hrecord := s.state.window_record invalidation.key key
    rw [if_neg (Ne.symm hne)] at hrecord
    have hscheduled : ({ s with state := (s.state.record invalidation.key).1 }.record
        (.scheduled invalidation.key)).CoalescedAt key :=
      (h.setState hrecord.1).record (decide_eq_false hne) rfl rfl
    simp only [step]
    split
    · have hopened : (InvalidationEvent.opened invalidation.key).isOpened key = false :=
        decide_eq_false hne
      refine CoalescedAt.record ?_ rfl hopened rfl
      refine hscheduled.frame rfl ?_ Iff.rfl rfl
      exact List.filter_cons_of_neg fun htrue => hne (of_decide_eq_true htrue)
    · exact hscheduled
  | publish t unreadTotal =>
    simp only [step]
    split
    · split
      · exact (h.moveTo hne _).record rfl rfl (decide_eq_false hne)
      · exact (h.moveTo hne _).record rfl rfl (decide_eq_false hne)
      · exact h
    · exact h
  | spawn t =>
    replace hne : t.key ≠ key := hne
    simp only [step]
    split
    · split
      · exact h.moveTo hne _
      · have hcancel := s.state.window_cancel t.key key
        rw [if_neg (Ne.symm hne)] at hcancel
        exact (h.setState hcancel).erase hne
      · exact h
    · exact h
  | expire t =>
    replace hne : t.key ≠ key := hne
    have hfinish := (s.state.window_finish t.key key).1
    rw [if_neg (Ne.symm hne)] at hfinish
    simp only [step]
    split
    · split
      · exact ((h.setState hfinish).moveTo hne _).record rfl (decide_eq_false hne) rfl
      · exact (h.setState hfinish).erase hne
    · exact h

/-- The window is marked, or a new one opens. -/
theorem CoalescedAt.schedule {invalidation : Invalidation} (h : s.CoalescedAt invalidation.key) :
    (s.step (.schedule invalidation true)).CoalescedAt invalidation.key := by
  obtain ⟨hwindow, hleading⟩ := s.state.window_record invalidation.key invalidation.key
  rw [if_pos rfl] at hwindow
  unfold CoalescedAt at h
  generalize hopen : s.state.window invalidation.key = window at h hwindow hleading
  generalize htasks : s.tasksFor invalidation.key = tasks at h
  simp only [step, hleading]
  cases h with
  | closed =>
    rw [Option.isNone_none, if_pos rfl]
    have htasks' : tasksFor { s with tasks := ⟨invalidation, .leading true⟩ :: s.tasks }
        invalidation.key = [⟨invalidation, .leading true⟩] := by
      rw [tasksFor, List.filter_cons_of_pos (by simp [InvalidationTask.key])]
      exact congrArg _ htasks
    unfold CoalescedAt
    exact hwindow ▸ htasks' ▸ .due rfl rfl (countSince_open (decide_eq_true rfl))
  | due hruntime hdue hnone =>
    unfold CoalescedAt
    exact hwindow ▸ htasks ▸ .due hruntime hdue ((countSince_skip rfl rfl).trans hnone)
  | waiting hruntime hdue _ honce =>
    unfold CoalescedAt
    exact hwindow ▸ htasks ▸ .waiting hruntime hdue (Or.inl rfl)
      ((countSince_skip rfl rfl).trans_le honce)

theorem CoalescedAt.publish (h : s.CoalescedAt t.key) (unreadTotal : Option ℕ) :
    (s.step (.publish t unreadTotal)).CoalescedAt t.key := by
  simp only [step]
  split
  case isFalse => exact h
  rename_i ht
  have htasks := h.alone ht
  -- a task that publishes has not done so in its window
  have hpublish (phase : InvalidationPhase) (hruntime : phase.inRuntime = t.phase.inRuntime)
      (hdue : t.phase.due = true) (hnext : phase.due = false) :
      ((s.moveTo t phase).record
        (.published t.key (t.invalidation.event unreadTotal))).CoalescedAt t.key := by
    have htasks' : (s.moveTo t phase).tasksFor t.key = [{ t with phase }] := by
      rw [tasksFor_moveTo, if_pos rfl, htasks, List.erase_cons_head]
    unfold CoalescedAt at h
    rw [htasks] at h
    generalize hopen : s.state.window t.key = window at h
    cases h with
    | due hin _ hnone =>
      have honce : ((s.moveTo t phase).record
          (.published t.key (t.invalidation.event unreadTotal))).publishes t.key ≤ 1 :=
        (countSince_cons_le rfl).trans (Nat.succ_le_succ (Nat.le_of_eq hnone))
      unfold CoalescedAt
      exact hopen ▸ htasks' ▸ .waiting (hruntime.trans hin) hnext
        (Or.inr (Answered.answer (decide_eq_true rfl))) honce
    | waiting _ hwaiting =>
      rw [hwaiting] at hdue
      cases hdue
  split
  · rename_i runtime hphase
    exact hpublish _ (by rw [hphase]; rfl) (by rw [hphase]; rfl) rfl
  · rename_i hphase
    exact hpublish _ (by rw [hphase]; rfl) (by rw [hphase]; rfl) rfl
  · exact h

/-- With a runtime there always is a drainer for the window. -/
theorem CoalescedAt.spawn (h : s.CoalescedAt t.key) : (s.step (.spawn t)).CoalescedAt t.key := by
  simp only [step]
  split
  case isFalse => exact h
  rename_i ht
  have htasks := h.alone ht
  have hown := h
  unfold CoalescedAt at h
  rw [htasks] at h
  generalize hopen : s.state.window t.key = window at h
  split
  · rename_i hphase
    have htasks' : (s.moveTo t .sleeping).tasksFor t.key = [{ t with phase := .sleeping }] := by
      rw [tasksFor_moveTo, if_pos rfl, htasks, List.erase_cons_head]
    cases h with
    | due _ hdue =>
      rw [hphase] at hdue
      cases hdue
    | waiting _ _ hcurrent honce =>
      unfold CoalescedAt
      exact hopen ▸ htasks' ▸ .waiting rfl rfl hcurrent honce
  · rename_i hphase
    cases h with
    | due hruntime | waiting hruntime =>
      rw [hphase] at hruntime
      cases hruntime
  · exact hown

/-- The end of a window: another one opens if it was marked. -/
theorem CoalescedAt.expire (h : s.CoalescedAt t.key) :
    (s.step (.expire t)).CoalescedAt t.key := by
  simp only [step]
  split
  case isFalse => exact h
  rename_i ht
  obtain ⟨ht, hphase⟩ := ht
  have htasks := h.alone ht
  obtain ⟨hwindow, hdue⟩ := s.state.window_finish t.key t.key
  rw [if_pos rfl] at hwindow
  unfold CoalescedAt at h
  rw [htasks] at h
  generalize hopen : s.state.window t.key = window at h hwindow hdue
  rw [hdue]
  cases h with
  | due _ hdue =>
    rw [hphase] at hdue
    cases hdue
  | @waiting trailing _ _ _ hcurrent honce =>
    cases trailing with
    | true =>
      have htasks' : (s.moveTo t .trailing).tasksFor t.key = [{ t with phase := .trailing }] := by
        rw [tasksFor_moveTo, if_pos rfl, htasks, List.erase_cons_head]
      unfold CoalescedAt
      exact hwindow ▸ htasks' ▸ .due rfl rfl (countSince_open (decide_eq_true rfl))
    | false =>
      have htasks' : tasksFor { s with tasks := s.tasks.erase t } t.key = [] := by
        rw [tasksFor, filter_erase, htasks, List.erase_cons_head]
      unfold CoalescedAt
      exact hwindow ▸ htasks' ▸ .closed (hcurrent.resolve_left (by simp)) honce

theorem CoalescedAt.step (h : ∀ key, s.CoalescedAt key) {a : InvalidationStep}
    (hruntime : a.inRuntime = true) (key : String) : (s.step a).CoalescedAt key := by
  by_cases hne : a.key = key
  · subst hne
    cases a with
    | schedule invalidation runtime =>
      cases hruntime
      exact (h _).schedule
    | publish t unreadTotal => exact (h _).publish unreadTotal
    | spawn t => exact (h _).spawn
    | expire t => exact (h _).expire
  · exact (h key).step_of_ne hne

/-- However the calls of `schedule`, the ends of windows and the publishes interleave, nothing is
lost, as long as every call is made in the runtime. -/
theorem losesNothing_of_inRuntime (as : List InvalidationStep)
    (hruntime : ∀ a ∈ as, a.inRuntime = true) :
    ∀ s ∈ states step {} as, ∀ key, s.LosesNothing key := by
  intro s hs key
  have hstep : ∀ s a, (∀ key, CoalescedAt s key) → a.inRuntime = true →
      ∀ key, (s.step a).CoalescedAt key := fun s a h ha => CoalescedAt.step h ha
  have hinit : ∀ key, CoalescedAt {} key := fun key => .closed trivial (Nat.zero_le 1)
  exact (invariant_states hstep hinit (guarded_of_forall hruntime) s hs key).losesNothing

/-- A call comes between the end of the first window and the publish that was due there. -/
theorem losesNothing_of_inRuntime_trailing :
    (run step {} [.schedule .unread true, .schedule .unread true,
      .publish ⟨.unread, .leading true⟩ (some 1), .spawn ⟨.unread, .published true⟩,
      .expire ⟨.unread, .sleeping⟩, .schedule .unread true,
      .publish ⟨.unread, .trailing⟩ (some 2), .expire ⟨.unread, .sleeping⟩,
      .publish ⟨.unread, .trailing⟩ (some 2), .expire ⟨.unread, .sleeping⟩]).LosesNothing
        "unread" :=
  losesNothing_of_inRuntime _ (by decide) _ (run_mem_states _ _ _) "unread"

end InvalidationBroadcaster

end OmarchyWhatsapp

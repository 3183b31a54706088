import OmarchyWhatsapp.Relational.Outstanding
import OmarchyWhatsapp.Relational.Run
import OmarchyWhatsapp.Session.PresenceTheorems

/-!
# The presence follows the intents

A reconciliation sends the difference of two states. It reaches the state that is current then
only if nothing is outstanding, from another reconciliation, on what it changes.
-/

namespace OmarchyWhatsapp

open Relational

/-! ## What the transport was told last -/

def PresenceMark.presence (available : Bool) : PresenceMark → Bool
  | .setAvailable => true
  | .setUnavailable => false
  | _ => available

/-- The last presence that was set. -/
def advertised (trace : List PresenceMark) : Bool := trace.foldl PresenceMark.presence false

@[simp] theorem advertised_append (trace : List PresenceMark) (m : PresenceMark) :
    advertised (trace ++ [m]) = PresenceMark.presence (advertised trace) m :=
  List.foldl_append

def PresenceMark.subscription (jid : String) (subscribed : Bool) : PresenceMark → Bool
  | .subscribed other => if other = jid then true else subscribed
  | .unsubscribed other => if other = jid then false else subscribed
  | _ => subscribed

/-- The presence of `jid` was subscribed, and not unsubscribed since. -/
def isSubscribed (trace : List PresenceMark) (jid : String) : Bool :=
  trace.foldl (PresenceMark.subscription jid) false

@[simp] theorem isSubscribed_append (trace : List PresenceMark) (m : PresenceMark) (jid : String) :
    isSubscribed (trace ++ [m]) jid = PresenceMark.subscription jid (isSubscribed trace jid) m :=
  List.foldl_append

/-! ## What is outstanding -/

namespace Reconciliation

variable (direct : String → Bool)

/-- The presence that is still to be set. -/
def owedPresence (task : Reconciliation) : Option Bool :=
  match task.phase with
  | .reading =>
    if task.before.available = task.after.available then none else some task.after.available
  | _ => none

/-- The chats that are still to be unsubscribed. -/
def unsubscribes (task : Reconciliation) : Finset String :=
  match task.phase with
  | .starting => ∅
  | .reading => PresenceDaemon.leftChats direct task.before task.after
  | .calling unsubscribes _ => unsubscribes

/-- The chats that are still to be subscribed. -/
def subscribes (task : Reconciliation) : Finset String :=
  match task.phase with
  | .starting => ∅
  | .reading => PresenceDaemon.leftChats direct task.after task.before
  | .calling _ subscribes => subscribes

/-- What is still to be said about one chat. -/
def owedChat (jid : String) (task : Reconciliation) : Option Bool :=
  if jid ∈ task.unsubscribes direct then some false
  else if jid ∈ task.subscribes direct then some true
  else none

theorem owedChat_eq_none {jid : String} {task : Reconciliation} :
    task.owedChat direct jid = none ↔
      jid ∉ task.unsubscribes direct ∧ jid ∉ task.subscribes direct := by
  unfold owedChat
  split
  · simp_all
  · split <;> simp_all

/-- No call is left. -/
def Done (task : Reconciliation) : Prop :=
  task.owedPresence = none ∧ task.unsubscribes direct = ∅ ∧ task.subscribes direct = ∅

instance (task : Reconciliation) : Decidable (task.Done direct) :=
  inferInstanceAs (Decidable (_ ∧ _))

theorem Done.owedChat {task : Reconciliation} (h : task.Done direct) (jid : String) :
    task.owedChat direct jid = none := by
  rw [owedChat_eq_none, h.2.1, h.2.2]
  exact ⟨Finset.notMem_empty jid, Finset.notMem_empty jid⟩

/-- A reconciliation of a change of intents. -/
structure OfChange (task : Reconciliation) : Prop where
  notForced : task.forcePresence = false
  started : task.phase ≠ .starting
  disjoint : Disjoint (task.unsubscribes direct) (task.subscribes direct)

end Reconciliation

namespace PresenceDaemon

variable (direct : String → Bool)

/-- Nothing is outstanding on what a change of the intents would change. -/
def Free (s : PresenceDaemon) (intents : ConnectionIntents) : Prop :=
  (s.intents.state.available ≠ intents.state.available →
      ∀ task ∈ s.tasks, task.owedPresence = none) ∧
    ∀ jid ∈ leftChats direct s.intents.state intents.state ∪
      leftChats direct intents.state s.intents.state,
        ∀ task ∈ s.tasks, task.owedChat direct jid = none

instance (s : PresenceDaemon) (intents : ConnectionIntents) : Decidable (s.Free direct intents) :=
  inferInstanceAs (Decidable (_ ∧ _))

/-- One client throughout, and only the connections act; intents change when nothing is
outstanding on what they change, and a command is dropped when it has no call left. -/
def Unhurried (s : PresenceDaemon) : PresenceStep → Prop
  | .connect _ => True
  | .setActiveChat id chat => s.gateFree = true → (s.intents.find? id).isSome →
      s.Free direct (s.intents.setActiveChat id chat)
  | .setPresence id available => s.gateFree = true → (s.intents.find? id).isSome →
      s.Free direct (s.intents.setAvailable id available)
  | .close id => (s.intents.find? id).isSome → s.Free direct (s.intents.disconnect id) ∧
      ∀ task ∈ s.tasks, task.owner = .command id → task.Done direct
  | .timeOut task => task ∈ s.tasks → task.Done direct
  | .advance _ => True
  | .call _ _ => True
  | .finish _ => True
  | _ => False

instance (s : PresenceDaemon) (a : PresenceStep) : Decidable (s.Unhurried direct a) := by
  apply PresenceStep.casesOn (motive := fun a => Decidable (s.Unhurried direct a)) a
  all_goals
    intros
    dsimp only [Unhurried]
    infer_instance

/-- A chat of a person is active. -/
def activeDirect (s : PresenceDaemon) (jid : String) : Bool :=
  direct jid && decide (jid ∈ s.intents.state.activeChats)

/-- The transport follows the intents, apart from what is outstanding. -/
structure Follows (s : PresenceDaemon) : Prop where
  client : s.client = true
  notPending : s.presenceSyncPending = false
  pushName : s.pushName ≠ ""
  tasks : ∀ task ∈ s.tasks, task.OfChange direct
  presence : Tracks Reconciliation.owedPresence s.tasks s.intents.state.available
    (advertised s.trace)
  chats : ∀ jid, Tracks (Reconciliation.owedChat direct jid) s.tasks (s.activeDirect direct jid)
    (isSubscribed s.trace jid)

/-! ## Steps -/

variable {direct : String → Bool} {s : PresenceDaemon}

theorem mem_leftChats {st st' : ConnectionState} {jid : String} :
    jid ∈ leftChats direct st st' ↔
      (jid ∈ st.activeChats ∧ jid ∉ st'.activeChats) ∧ direct jid = true := by
  rw [leftChats, Finset.mem_filter, Finset.mem_sdiff]

theorem disjoint_leftChats (st st' : ConnectionState) :
    Disjoint (leftChats direct st st') (leftChats direct st' st) := by
  rw [Finset.disjoint_left]
  intro jid hleft hright
  exact (mem_leftChats.mp hleft).1.2 (mem_leftChats.mp hright).1.1

/-- The tasks that are left when some end that have no call left. -/
theorem Follows.of_rest (h : s.Follows direct) {rest : List Reconciliation}
    (hsub : ∀ task ∈ rest, task ∈ s.tasks)
    (hdone : ∀ task ∈ s.tasks, task ∉ rest → task.Done direct) :
    Follows direct { s with tasks := rest } where
  client := h.client
  notPending := h.notPending
  pushName := h.pushName
  tasks := fun task htask => h.tasks task (hsub task htask)
  presence := h.presence.sublist hsub fun task htask hgone => (hdone task htask hgone).1
  chats := fun jid => (h.chats jid).sublist hsub fun task htask hgone =>
    (hdone task htask hgone).owedChat direct jid

theorem Follows.end_task (h : s.Follows direct) {task : Reconciliation} (hdone : task.Done direct) :
    Follows direct { s with tasks := s.tasks.erase task } :=
  h.of_rest (fun _ hx => List.mem_of_mem_erase hx) fun x hx hgone => by
    have hsame : x = task := by
      by_contra hne
      exact hgone ((List.mem_erase_of_ne hne).mpr hx)
    rw [hsame]
    exact hdone

/-- A chat that a change neither adds nor removes stays as active as it was. -/
theorem activeDirect_of_notMem {intents : ConnectionIntents} {jid : String}
    (hleft : jid ∉ leftChats direct s.intents.state intents.state)
    (hnew : jid ∉ leftChats direct intents.state s.intents.state) :
    (direct jid && decide (jid ∈ intents.state.activeChats)) = s.activeDirect direct jid := by
  unfold activeDirect
  rw [mem_leftChats] at hleft hnew
  cases hdirect : direct jid with
  | false => rfl
  | true =>
    rw [Bool.true_and, Bool.true_and, decide_eq_decide]
    by_contra hiff
    by_cases hold : jid ∈ s.intents.state.activeChats
    · exact hleft ⟨⟨hold, fun h => hiff ⟨fun _ => hold, fun _ => h⟩⟩, hdirect⟩
    · refine hnew ⟨⟨?_, hold⟩, hdirect⟩
      by_contra h
      exact hiff ⟨fun h' => absurd h' h, fun h' => absurd h' hold⟩

/-- The intents change when nothing is outstanding on the difference. -/
theorem Follows.change (h : s.Follows direct) {owner : ReconcileOwner}
    {intents : ConnectionIntents} (hfree : s.Free direct intents) :
    (s.changeIntents owner intents).Follows direct where
  client := h.client
  notPending := h.notPending
  pushName := h.pushName
  tasks := by
    intro task htask
    rcases List.mem_cons.mp htask with rfl | htask
    · exact ⟨rfl, nofun, disjoint_leftChats _ _⟩
    · exact h.tasks task htask
  presence := by
    show Tracks _ (_ :: s.tasks) intents.state.available (advertised s.trace)
    by_cases hsame : s.intents.state.available = intents.state.available
    · have hkept := h.presence
      rw [hsame] at hkept
      exact hkept.keep (if_pos hsame)
    · exact Tracks.change (hfree.1 hsame) (if_neg hsame)
  chats := by
    intro jid
    show Tracks _ (_ :: s.tasks) (direct jid && decide (jid ∈ intents.state.activeChats))
      (isSubscribed s.trace jid)
    by_cases hleft : jid ∈ leftChats direct s.intents.state intents.state
    · refine Tracks.change (hfree.2 jid (Finset.mem_union_left _ hleft)) ?_
      obtain ⟨⟨-, hnot⟩, -⟩ := mem_leftChats.mp hleft
      rw [decide_eq_false hnot, Bool.and_false]
      exact if_pos hleft
    by_cases hnew : jid ∈ leftChats direct intents.state s.intents.state
    · refine Tracks.change (hfree.2 jid (Finset.mem_union_right _ hnew)) ?_
      obtain ⟨⟨hactive, -⟩, hdirect⟩ := mem_leftChats.mp hnew
      rw [decide_eq_true hactive, hdirect]
      exact (if_neg hleft).trans (if_pos hnew)
    · have hkept := h.chats jid
      rw [← activeDirect_of_notMem hleft hnew] at hkept
      exact hkept.keep ((if_neg hleft).trans (if_neg hnew))

/-- The presence of a change is set as it asks for. -/
theorem Follows.callPresence (h : s.Follows direct) {task : Reconciliation}
    (hforced : task.forcePresence = false) :
    (task.before.available = task.after.available ∧ s.callPresence task = s) ∨
      (task.before.available ≠ task.after.available ∧ ∃ m, s.callPresence task = s.mark m ∧
        (∀ available, PresenceMark.presence available m = task.after.available) ∧
        ∀ jid subscribed, PresenceMark.subscription jid subscribed m = subscribed) := by
  by_cases hsame : task.before.available = task.after.available
  · refine Or.inl ⟨hsame, ?_⟩
    rw [PresenceDaemon.callPresence, if_neg]
    rintro (hf | hne)
    · rw [hforced] at hf
      cases hf
    · exact hne hsame
  · refine Or.inr ⟨hsame, ?_⟩
    rw [PresenceDaemon.callPresence, if_pos (Or.inr hsame), h.notPending]
    cases hafter : task.after.available with
    | true =>
      exact ⟨.setAvailable, if_neg h.pushName, fun _ => rfl, fun _ _ => rfl⟩
    | false => exact ⟨.setUnavailable, rfl, fun _ => rfl, fun _ _ => rfl⟩

theorem Follows.advance (h : s.Follows direct) {task : Reconciliation} (htask : task ∈ s.tasks) :
    (s.advance direct task).Follows direct := by
  have hchange := h.tasks task htask
  unfold PresenceDaemon.advance
  split
  · rename_i hphase
    exact absurd hphase hchange.started
  · rename_i hphase
    rw [if_neg (by rw [h.client]; decide)]
    set next : Reconciliation := { task with
      phase := .calling (leftChats direct task.before task.after)
        (leftChats direct task.after task.before) } with hnext
    have hunsubscribes : next.unsubscribes direct = task.unsubscribes direct := by
      unfold Reconciliation.unsubscribes
      rw [hphase]
    have hsubscribes : next.subscribes direct = task.subscribes direct := by
      unfold Reconciliation.subscribes
      rw [hphase]
    have hchat : ∀ jid, next.owedChat direct jid = task.owedChat direct jid := by
      intro jid
      unfold Reconciliation.owedChat
      rw [hunsubscribes, hsubscribes]
    have htasks : ∀ x ∈ next :: s.tasks.erase task, x.OfChange direct := by
      intro x hx
      rcases List.mem_cons.mp hx with rfl | hx
      · exact ⟨hchange.notForced, nofun, by rw [hunsubscribes, hsubscribes]; exact hchange.disjoint⟩
      · exact h.tasks x (List.mem_of_mem_erase hx)
    have howed : task.owedPresence = if task.before.available = task.after.available then none
        else some task.after.available := by
      unfold Reconciliation.owedPresence
      rw [hphase]
    rcases h.callPresence hchange.notForced with ⟨hsame, heq⟩ | ⟨hne, m, heq, hpresence, hsub⟩
    · rw [heq]
      rw [if_pos hsame] at howed
      exact ⟨h.client, h.notPending, h.pushName, htasks,
        h.presence.moveTo htask howed.symm, fun jid => (h.chats jid).moveTo htask (hchat jid)⟩
    · rw [heq]
      rw [if_neg hne] at howed
      refine ⟨h.client, h.notPending, h.pushName, htasks, ?_, fun jid => ?_⟩
      · show Tracks _ _ _ (advertised (s.trace ++ [m]))
        rw [advertised_append, hpresence]
        exact h.presence.send htask howed rfl
      · show Tracks _ _ _ (isSubscribed (s.trace ++ [m]) jid)
        rw [isSubscribed_append, hsub]
        exact (h.chats jid).moveTo htask (hchat jid)
  · exact h

/-- A task says what is outstanding on one chat, and goes on as `next`. -/
theorem Follows.sayChat (h : s.Follows direct) (m : PresenceMark) (next : Reconciliation)
    {task : Reconciliation} (htask : task ∈ s.tasks) (hnext : next.OfChange direct) (hpresence : next.owedPresence = task.owedPresence)
    {jid : String} {v : Bool} (howed : task.owedChat direct jid = some v)
    (hpaid : next.owedChat direct jid = none)
    (hothers : ∀ other, jid ≠ other → next.owedChat direct other = task.owedChat direct other)
    (hm : ∀ available, PresenceMark.presence available m = available)
    (hjid : ∀ subscribed, PresenceMark.subscription jid subscribed m = v)
    (hother : ∀ other, jid ≠ other → ∀ subscribed,
      PresenceMark.subscription other subscribed m = subscribed) :
    ((s.mark m).moveTo task next).Follows direct where
  client := h.client
  notPending := h.notPending
  pushName := h.pushName
  tasks := by
    intro x hx
    rcases List.mem_cons.mp hx with rfl | hx
    · exact hnext
    · exact h.tasks x (List.mem_of_mem_erase hx)
  presence := by
    show Tracks _ (next :: s.tasks.erase task) _ (advertised (s.trace ++ [m]))
    rw [advertised_append, hm]
    exact h.presence.moveTo htask hpresence
  chats := by
    intro other
    show Tracks _ (next :: s.tasks.erase task) _ (isSubscribed (s.trace ++ [m]) other)
    rw [isSubscribed_append]
    by_cases hsame : jid = other
    · subst hsame
      rw [hjid]
      exact (h.chats jid).send htask howed hpaid
    · rw [hother other hsame]
      exact (h.chats other).moveTo htask (hothers other hsame)

theorem Follows.callChat (h : s.Follows direct) {task : Reconciliation} (htask : task ∈ s.tasks)
    (jid : String) : (s.callChat task jid).Follows direct := by
  have hchange := h.tasks task htask
  unfold PresenceDaemon.callChat
  split
  · rename_i unsubscribes subscribes hphase
    have hpresence : none = task.owedPresence := by
      unfold Reconciliation.owedPresence
      rw [hphase]
    have howed : ∀ other, task.owedChat direct other = if other ∈ unsubscribes then some false
        else if other ∈ subscribes then some true else none := by
      intro other
      unfold Reconciliation.owedChat Reconciliation.unsubscribes Reconciliation.subscribes
      rw [hphase]
    have hdisjoint : Disjoint unsubscribes subscribes := by
      have := hchange.disjoint
      unfold Reconciliation.unsubscribes Reconciliation.subscribes at this
      rwa [hphase] at this
    split
    · rename_i hjid
      refine h.sayChat (.unsubscribed jid)
        { task with phase := .calling (unsubscribes.erase jid) subscribes } htask
        ⟨hchange.notForced, nofun,
          Finset.disjoint_of_subset_left (Finset.erase_subset jid _) hdisjoint⟩ hpresence
        ((howed jid).trans (if_pos hjid)) ?_ (fun other hother => ?_) (fun _ => rfl)
        (fun _ => if_pos rfl) (fun other hother _ => if_neg hother)
      · rw [Reconciliation.owedChat_eq_none]
        exact ⟨Finset.notMem_erase jid _, Finset.disjoint_left.mp hdisjoint hjid⟩
      · rw [howed]
        exact if_congr ⟨Finset.mem_of_mem_erase,
          fun hin => Finset.mem_erase.mpr ⟨Ne.symm hother, hin⟩⟩ rfl rfl
    · split
      · rename_i hleft hjid
        refine h.sayChat (.subscribed jid)
          { task with phase := .calling ∅ (subscribes.erase jid) } htask
          ⟨hchange.notForced, nofun, Finset.disjoint_empty_left _⟩ hpresence
          ((howed jid).trans ((if_neg hleft).trans (if_pos hjid.2))) ?_ (fun other hother => ?_)
          (fun _ => rfl) (fun _ => if_pos rfl) (fun other hother _ => if_neg hother)
        · rw [Reconciliation.owedChat_eq_none]
          exact ⟨Finset.notMem_empty jid, Finset.notMem_erase jid _⟩
        · rw [howed, hjid.1]
          exact if_congr Iff.rfl rfl (if_congr ⟨Finset.mem_of_mem_erase,
            fun hin => Finset.mem_erase.mpr ⟨Ne.symm hother, hin⟩⟩ rfl rfl)
      · exact h
  · exact h

/-- A new connection asks for nothing. -/
theorem state_connect (intents : ConnectionIntents) (id : ℕ) :
    (intents.connect id).state = intents.state := by
  unfold ConnectionIntents.connect ConnectionIntents.state
  rw [Table.rows_insertOrIgnore]
  split
  · simp
  · rfl

theorem Follows.step (h : s.Follows direct) {a : PresenceStep} (ha : s.Unhurried direct a) :
    (s.step direct a).Follows direct := by
  cases a with
  | begin => exact absurd ha id
  | retire => exact absurd ha id
  | clearClient => exact absurd ha id
  | establish => exact absurd ha id
  | lose => exact absurd ha id
  | catchUp => exact absurd ha id
  | rename newName => exact absurd ha id
  | deliver => exact absurd ha id
  | spawn => exact absurd ha id
  | reduce => exact absurd ha id
  | connect id =>
    have hsame := state_connect s.intents id
    refine ⟨h.client, h.notPending, h.pushName, h.tasks, ?_, fun jid => ?_⟩
    · show Tracks _ _ (s.intents.connect id).state.available _
      rw [hsame]
      exact h.presence
    · show Tracks _ _ (direct jid && decide (jid ∈ (s.intents.connect id).state.activeChats)) _
      rw [hsame]
      exact h.chats jid
  | setActiveChat id chat =>
    rw [PresenceDaemon.step]
    split
    · rename_i hopen
      exact h.change (ha hopen.1 hopen.2)
    · exact h
  | setPresence id available =>
    rw [PresenceDaemon.step]
    split
    · rename_i hopen
      exact h.change (ha hopen.1 hopen.2)
    · exact h
  | close id =>
    rw [PresenceDaemon.step]
    split
    · rename_i hopen
      obtain ⟨hfree, hdone⟩ := ha hopen
      have hkept : ∀ task ∈ (s.dropCommands id).tasks, task ∈ s.tasks := fun task htask =>
        (List.mem_filter.mp htask).1
      have hdropped : (s.dropCommands id).Follows direct :=
        h.of_rest hkept fun task htask hgone => by
          refine hdone task htask ?_
          by_contra howner
          exact hgone (List.mem_filter.mpr ⟨htask, decide_eq_true howner⟩)
      refine hdropped.change ⟨fun hne task htask => ?_, fun jid hjid task htask => ?_⟩
      · exact hfree.1 hne task (hkept task htask)
      · exact hfree.2 jid hjid task (hkept task htask)
    · exact h
  | advance task =>
    rw [PresenceDaemon.step]
    split
    · exact h.advance ‹_›
    · exact h
  | call task jid =>
    rw [PresenceDaemon.step]
    split
    · exact h.callChat ‹_› jid
    · exact h
  | finish task =>
    rw [PresenceDaemon.step]
    split
    · rename_i hends
      refine h.end_task ?_
      unfold Reconciliation.Done Reconciliation.owedPresence Reconciliation.unsubscribes
        Reconciliation.subscribes
      rw [hends.2]
      exact ⟨rfl, rfl, rfl⟩
    · exact h
  | timeOut task =>
    rw [PresenceDaemon.step]
    split
    · rename_i hends
      exact h.end_task (ha hends.1)
    · exact h

/-! ## Runs -/

/-- A client that knows its push name, no catch-up, no reconciliation, and the transport was told
what the intents ask for. -/
structure Settled (direct : String → Bool) (s : PresenceDaemon) : Prop where
  client : s.client = true
  notPending : s.presenceSyncPending = false
  pushName : s.pushName ≠ ""
  tasks : s.tasks = []
  presence : advertised s.trace = s.intents.state.available
  chats : ∀ jid, isSubscribed s.trace jid = s.activeDirect direct jid

theorem Settled.follows (h : s.Settled direct) : s.Follows direct where
  client := h.client
  notPending := h.notPending
  pushName := h.pushName
  tasks := by
    rw [h.tasks]
    exact fun _ htask => absurd htask List.not_mem_nil
  presence := by
    rw [h.tasks]
    exact ⟨fun _ htask => absurd htask List.not_mem_nil, fun _ => h.presence⟩
  chats := by
    intro jid
    rw [h.tasks]
    exact ⟨fun _ htask => absurd htask List.not_mem_nil, fun _ => h.chats jid⟩

/-- In every run in which intents change only when nothing is outstanding on the difference, the
transport was told what the intents ask for whenever all reconciliations have ended. -/
theorem converges_of_unhurried (direct : String → Bool) (s : PresenceDaemon)
    (hs : s.Settled direct) (steps : List PresenceStep)
    (hg : Guarded (PresenceDaemon.step direct) (Unhurried direct) s steps) :
    ∀ s' ∈ states (PresenceDaemon.step direct) s steps, s'.tasks = [] →
      advertised s'.trace = s'.intents.state.available ∧
        ∀ jid, isSubscribed s'.trace jid =
          (direct jid && decide (jid ∈ s'.intents.state.activeChats)) := by
  intro s' hs' hnone
  have hfollows : s'.Follows direct :=
    invariant_states (I := Follows direct) (fun _ _ h ha => h.step ha) hs.follows hg s' hs'
  have hends : ∀ task, task ∉ s'.tasks := by
    rw [hnone]
    exact fun _ => List.not_mem_nil
  exact ⟨hfollows.presence.settled fun task htask => absurd htask (hends task),
    fun jid => (hfollows.chats jid).settled fun task htask => absurd htask (hends task)⟩

/-- A client that is caught up. -/
def caughtUp : PresenceDaemon where
  generation := 1
  loop := .running
  connection := some true
  pushName := "Ada"
  client := true

theorem settled_caughtUp (direct : String → Bool) : caughtUp.Settled direct where
  client := rfl
  notPending := rfl
  pushName := by decide
  tasks := rfl
  presence := rfl
  chats := fun jid => (Bool.and_false (direct jid)).symm

/-- The panel in focus, without a chat or on one. -/
def panel (chats : Finset String) : ConnectionState := { available := true, activeChats := chats }

/-- A client in focus opens a chat and leaves. -/
def visit (chat : String) : List PresenceStep :=
  let focus : Reconciliation := { owner := .command 1, after := panel ∅ }
  let select : Reconciliation := { owner := .command 1, before := panel ∅, after := panel {chat} }
  [.connect 1, .setPresence 1 true, .advance focus,
    .finish { focus with phase := .calling ∅ ∅ }, .setActiveChat 1 (some chat), .advance select,
    .call { select with phase := .calling ∅ {chat} } chat,
    .finish { select with phase := .calling ∅ ∅ }, .close 1,
    .advance { owner := .closing, before := panel {chat} }]

theorem converges_of_unhurried_visit :
    let steps := visit "1@s.whatsapp.net" ++
      [.call { owner := .closing, before := panel {"1@s.whatsapp.net"}
               phase := .calling {"1@s.whatsapp.net"} ∅ } "1@s.whatsapp.net",
        .finish { owner := .closing, before := panel {"1@s.whatsapp.net"}, phase := .calling ∅ ∅ }]
    (run (PresenceDaemon.step ofPerson) caughtUp steps).tasks = [] ∧
      ∀ s ∈ states (PresenceDaemon.step ofPerson) caughtUp steps, s.tasks = [] →
        advertised s.trace = s.intents.state.available :=
  ⟨by decide, fun s hs hnone => (converges_of_unhurried ofPerson caughtUp (settled_caughtUp _) _
    (by decide) s hs hnone).1⟩

/-- The panel opens again on the same chat while its first connection is still being closed: the
late unsubscription of the first takes the subscription of the second away. -/
theorem reopened_panel_loses_subscription :
    let steps := visit "1@s.whatsapp.net" ++
      [.connect 2, .setActiveChat 2 (some "1@s.whatsapp.net"),
        .advance { owner := .command 2, after := { activeChats := {"1@s.whatsapp.net"} } },
        .call { owner := .command 2, after := { activeChats := {"1@s.whatsapp.net"} }
                phase := .calling ∅ {"1@s.whatsapp.net"} } "1@s.whatsapp.net",
        .finish { owner := .command 2, after := { activeChats := {"1@s.whatsapp.net"} }
                  phase := .calling ∅ ∅ },
        .call { owner := .closing, before := panel {"1@s.whatsapp.net"}
                phase := .calling {"1@s.whatsapp.net"} ∅ } "1@s.whatsapp.net",
        .finish { owner := .closing, before := panel {"1@s.whatsapp.net"}, phase := .calling ∅ ∅ }]
    ¬∀ s ∈ states (PresenceDaemon.step ofPerson) caughtUp steps, s.tasks = [] →
      advertised s.trace = s.intents.state.available ∧ ∀ jid, isSubscribed s.trace jid =
        (ofPerson jid && decide (jid ∈ s.intents.state.activeChats)) := by
  intro steps h
  exact absurd ((h _ (run_mem_states _ _ _) (by decide)).2 "1@s.whatsapp.net") (by decide)

end PresenceDaemon

end OmarchyWhatsapp

import OmarchyWhatsapp.Session.ConnectionServer

/-!
# What a client gets from its connection

Every line is answered at most once, and once while the connection lasts; what is broadcast is
written in order and without a gap, except behind a hello.
-/

namespace OmarchyWhatsapp

open Relational

/-- What a job has left to do, its response included. -/
def ServerJobPhase.work : ServerJobPhase → ℕ
  | .queued => 4
  | .permitted => 3
  | .answered _ => 2

/-- The steps that answer lines, where `results` is what the commands return. No deadline passes
and nothing comes from the client. -/
def ServerStep.isAnswering (results : ℕ → Except String Wire.ServerEvent) : ServerStep → Prop
  | .acquirePermit _ | .send _ | .respond => True
  | .finish number result _ => result = results number
  | _ => False

/-- The frames of a list that were broadcast. -/
def broadcasts (written : List WrittenFrame) : List Wire.ServerFrame :=
  (written.filter (fun entry => match entry.source with
    | .broadcast _ => true
    | _ => false)).map (·.frame)

/-- What a client is written that has got the first `n` broadcasts of a list and then has got `m`
of them. Only a hello skips any. -/
inductive Delivered (published : List Wire.ServerFrame) : ℕ → List WrittenFrame → ℕ → Prop
  | nil (n : ℕ) : Delivered published n [] n
  | sync {n k m : ℕ} {written : List WrittenFrame} (frame : Wire.ServerFrame) (hskip : n ≤ k)
      (h : Delivered published k written m) : Delivered published n (⟨.sync, frame⟩ :: written) m
  | reply {n m : ℕ} {written : List WrittenFrame} (number : ℕ) (frame : Wire.ServerFrame)
      (h : Delivered published n written m) :
      Delivered published n (⟨.reply number, frame⟩ :: written) m
  | broadcast {n m : ℕ} {written : List WrittenFrame} {frame : Wire.ServerFrame}
      (hframe : published[n]? = some frame) (h : Delivered published (n + 1) written m) :
      Delivered published n (⟨.broadcast n, frame⟩ :: written) m

namespace Delivered

variable {published : List Wire.ServerFrame} {n k m : ℕ} {l l' : List WrittenFrame}

theorem append (h : Delivered published n l k) (h' : Delivered published k l' m) :
    Delivered published n (l ++ l') m := by
  induction h with
  | nil n => exact h'
  | sync frame hskip _ ih => exact .sync frame hskip (ih h')
  | reply number frame _ ih => exact .reply number frame (ih h')
  | broadcast hframe _ ih => exact .broadcast hframe (ih h')

theorem split (h : Delivered published n (l ++ l') m) :
    ∃ k, Delivered published n l k ∧ Delivered published k l' m := by
  induction l generalizing n with
  | nil => exact ⟨n, .nil n, h⟩
  | cons entry l ih =>
    cases h with
    | sync frame hskip h =>
      obtain ⟨k, hl, hl'⟩ := ih h
      exact ⟨k, .sync frame hskip hl, hl'⟩
    | reply number frame h =>
      obtain ⟨k, hl, hl'⟩ := ih h
      exact ⟨k, .reply number frame hl, hl'⟩
    | broadcast hframe h =>
      obtain ⟨k, hl, hl'⟩ := ih h
      exact ⟨k, .broadcast hframe hl, hl'⟩

/-- Something else is published. -/
theorem publish (h : Delivered published n l m) (frame : Wire.ServerFrame) :
    Delivered (published ++ [frame]) n l m := by
  induction h with
  | nil n => exact .nil n
  | sync frame hskip _ ih => exact .sync frame hskip ih
  | reply number frame _ ih => exact .reply number frame ih
  | broadcast hframe _ ih =>
    refine .broadcast ?_ ih
    rw [List.getElem?_append_left (List.getElem?_eq_some_iff.mp hframe).1]
    exact hframe

/-- In their order, and none twice. -/
theorem sublist (h : Delivered published n l m) :
    (broadcasts l).Sublist (published.drop n) := by
  induction h with
  | nil n => exact List.nil_sublist _
  | sync frame hskip _ ih => exact ih.trans (List.drop_sublist_drop_left published hskip)
  | reply number frame _ ih => exact ih
  | broadcast hframe _ ih =>
    obtain ⟨hlt, rfl⟩ := List.getElem?_eq_some_iff.mp hframe
    rw [List.drop_eq_getElem_cons hlt]
    exact ih.cons_cons _

/-- Without a hello, nothing is skipped. -/
theorem contiguous (h : Delivered published n l m) (hsync : ∀ entry ∈ l, entry.source ≠ .sync) :
    published.drop n = broadcasts l ++ published.drop m := by
  induction h with
  | nil n => rfl
  | sync frame hskip _ ih => exact absurd rfl (hsync _ List.mem_cons_self)
  | reply number frame _ ih => exact ih fun e he => hsync e (List.mem_cons_of_mem _ he)
  | broadcast hframe _ ih =>
    obtain ⟨hlt, rfl⟩ := List.getElem?_eq_some_iff.mp hframe
    rw [List.drop_eq_getElem_cons hlt, ih fun e he => hsync e (List.mem_cons_of_mem _ he)]
    rfl

end Delivered

namespace ConnectionServer

variable {frameBytes : Wire.ServerFrame → ℕ} {s : ConnectionServer} {number : ℕ}
  {phase : ServerJobPhase}

/-! ## Writing -/

theorem write_cases (frameBytes : Wire.ServerFrame → ℕ) (s : ConnectionServer)
    (entry : WrittenFrame) :
    write frameBytes s entry = { s with closed := true } ∨
      s.closed = false ∧ write frameBytes s entry = { s with written := s.written ++ [entry] } := by
  unfold write
  split
  · rename_i hclosed
    left
    rw [← hclosed]
  · rename_i hopen
    split
    · exact Or.inl rfl
    · exact Or.inr ⟨by simpa using hopen, rfl⟩

theorem find?_ne_of_moveTo {x : ServerJob} (hx : s.jobs.find? number = some x) {y : ServerJob}
    (hy : y ∈ (s.moveTo number phase).jobs.rows) :
    y ∈ s.jobs.rows ∨ y = { x with phase } := by
  rw [moveTo, Table.mem_updateWhere] at hy
  obtain ⟨z, hz, rfl⟩ := hy
  split
  · rename_i hnumber
    have hzx : z = x := s.jobs.key_inj hz (Table.mem_of_find? hx)
      ((of_decide_eq_true hnumber).trans (Table.key_of_find? hx).symm)
    exact Or.inr (by rw [hzx])
  · exact Or.inl hz

/-! ## Answers -/

def isReply (n : ℕ) (entry : WrittenFrame) : Bool := entry.source = .reply n

/-- How often a line is waiting for its response or has got it. -/
def share (s : ConnectionServer) (n : ℕ) : ℕ :=
  s.jobs.rows.countP (·.number = n) + s.responses.countP (·.1 = n) + s.written.countP (isReply n)

/-- The invariant: each line is waiting for its response or has got it, all but one that is being
answered, and a response has the id of its line. -/
structure Accounted (owed : Option ℕ) (s : ConnectionServer) : Prop where
  most : ∀ n, s.share n + (decide (owed = some n)).toNat ≤ (decide (n < s.received.length)).toNat
  all : s.closed = false → ∀ n < s.received.length, 1 ≤ s.share n + (decide (owed = some n)).toNat
  jobIds : ∀ x ∈ s.jobs.rows, s.received[x.number]? = some x.id ∧
    ∀ frame, x.phase = .answered frame → frame.id = x.id
  responseIds : ∀ r ∈ s.responses, s.received[r.1]? = some r.2.id
  writtenIds : ∀ entry ∈ s.written, ∀ n, entry.source = .reply n →
    s.received[n]? = some entry.frame.id

variable {owed : Option ℕ}

theorem Accounted.close (h : s.Accounted owed) : Accounted none { s with closed := true } where
  most n := (Nat.le_add_right _ _).trans (h.most n)
  all hopen := by cases hopen
  jobIds := h.jobIds
  responseIds := h.responseIds
  writtenIds := h.writtenIds

/-- What is broadcast answers nothing. -/
theorem Accounted.heard (h : s.Accounted owed) (published : List Wire.ServerFrame) (position : ℕ) :
    ({ s with published, position } : ConnectionServer).Accounted owed :=
  ⟨h.most, h.all, h.jobIds, h.responseIds, h.writtenIds⟩

/-- The response that is owed is written. -/
theorem Accounted.write (h : s.Accounted owed) {entry : WrittenFrame}
    (hsource : ∀ n, entry.source = .reply n ↔ owed = some n)
    (hid : ∀ n, entry.source = .reply n → s.received[n]? = some entry.frame.id) :
    (write frameBytes s entry).Accounted none := by
  rcases write_cases frameBytes s entry with heq | ⟨-, heq⟩
  · rw [heq]
    exact h.close
  · rw [heq]
    have hshare : ∀ n, ({ s with written := s.written ++ [entry] } : ConnectionServer).share n
        = s.share n + (decide (owed = some n)).toNat := by
      intro n
      have hreply : isReply n entry = decide (owed = some n) := decide_eq_decide.mpr (hsource n)
      unfold share
      rw [List.countP_append, List.countP_singleton, hreply]
      cases decide (owed = some n) <;> simp [Nat.add_assoc]
    refine ⟨fun n => ?_, fun hopen n hn => ?_, h.jobIds, h.responseIds, fun e he n hn => ?_⟩
    · rw [hshare]
      exact h.most n
    · rw [hshare]
      exact h.all hopen n hn
    · rcases List.mem_append.mp he with he | he
      · exact h.writtenIds e he n hn
      · rw [List.mem_singleton.mp he] at hn ⊢
        exact hid n hn

/-- A frame that answers no line. -/
theorem Accounted.write_other (h : s.Accounted none) {entry : WrittenFrame}
    (hsource : ∀ n, entry.source ≠ .reply n) :
    (ConnectionServer.write frameBytes s entry).Accounted none :=
  h.write (fun n => ⟨fun hn => absurd hn (hsource n), fun hn => (by cases hn)⟩)
    fun n hn => absurd hn (hsource n)

theorem Accounted.sync (h : s.Accounted none) (snapshot : SyncSnapshot) :
    (sync frameBytes s snapshot).Accounted none :=
  ((h.write_other fun _ hn => (by cases hn)).write_other fun _ hn => (by cases hn)).write_other
    fun _ hn => (by cases hn)

theorem Accounted.moveTo (h : s.Accounted owed) {x : ServerJob} (hx : s.jobs.find? number = some x)
    (hid : ∀ frame, phase = .answered frame → frame.id = x.id) :
    (s.moveTo number phase).Accounted owed := by
  have hshare : ∀ n, (s.moveTo number phase).share n = s.share n := by
    intro n
    have hcount := Table.countP_updateWhere_key (·.number = n) hx (fun x => { x with phase })
      fun _ => rfl
    unfold share
    exact congrArg (· + _ + _) (Nat.add_right_cancel hcount)
  refine ⟨fun n => ?_, fun hopen n hn => ?_, fun y hy => ?_, h.responseIds, h.writtenIds⟩
  · rw [hshare]
    exact h.most n
  · rw [hshare]
    exact h.all hopen n hn
  · rcases find?_ne_of_moveTo hx hy with hy | rfl
    · exact h.jobIds y hy
    · exact ⟨(h.jobIds x (Table.mem_of_find? hx)).1, hid⟩

/-- The response of a job goes into the queue. -/
theorem Accounted.send (h : s.Accounted owed) {x : ServerJob} {frame : Wire.ServerFrame}
    (hx : s.jobs.find? number = some x) (hphase : x.phase = .answered frame) :
    ({ s with
        jobs := s.jobs.deleteWhere (fun x => x.number = number)
        responses := s.responses ++ [(number, frame)] } : ConnectionServer).Accounted owed := by
  have hnumber : x.number = number := Table.key_of_find? hx
  have hmem := Table.mem_of_find? hx
  have hshare : ∀ n, ({ s with
      jobs := s.jobs.deleteWhere (fun x => x.number = number)
      responses := s.responses ++ [(number, frame)] } : ConnectionServer).share n = s.share n := by
    intro n
    have hcount := Table.weight_deleteWhere_key
      (fun x : ServerJob => (decide (x.number = n)).toNat) hx
    rw [← Table.countP_eq_weight, ← Table.countP_eq_weight, hnumber] at hcount
    have hqueue : ((s.responses ++ [(number, frame)]).countP (·.1 = n))
        = s.responses.countP (·.1 = n) + (decide (number = n)).toNat := by
      rw [List.countP_append, List.countP_singleton]
      cases decide (number = n) <;> rfl
    show (s.jobs.deleteWhere (fun x => x.number = number)).rows.countP (·.number = n)
      + (s.responses ++ [(number, frame)]).countP (·.1 = n) + s.written.countP (isReply n) = _
    unfold share
    omega
  refine ⟨fun n => ?_, fun hopen n hn => ?_, fun y hy => ?_, fun r hr => ?_, h.writtenIds⟩
  · rw [hshare]
    exact h.most n
  · rw [hshare]
    exact h.all hopen n hn
  · exact h.jobIds y (Table.mem_deleteWhere.mp hy).1
  · rcases List.mem_append.mp hr with hr | hr
    · exact h.responseIds r hr
    · obtain ⟨hreceived, hframe⟩ := h.jobIds x hmem
      rw [List.mem_singleton.mp hr, hframe frame hphase, ← hnumber]
      exact hreceived

theorem getElem?_received {n : ℕ} {id : Option ℕ} (h : s.received[n]? = some id)
    (line : Option ℕ) : (s.received ++ [line])[n]? = some id := by
  rw [List.getElem?_append_left (List.getElem?_eq_some_iff.mp h).1]
  exact h

/-- The next line has no share yet. -/
theorem Accounted.share_next (h : s.Accounted none) : s.share s.received.length = 0 := by
  have hmost := h.most s.received.length
  rw [decide_eq_false (Nat.lt_irrefl _)] at hmost
  exact Nat.le_zero.mp ((Nat.le_add_right _ _).trans hmost)

/-- A line that has been read is owed its response. -/
theorem Accounted.read (h : s.Accounted none) (line : Option ℕ) :
    ({ s with received := s.received ++ [line] } : ConnectionServer).Accounted
      (some s.received.length) := by
  have hnext := h.share_next
  have hlength : (s.received ++ [line]).length = s.received.length + 1 := List.length_append
  refine ⟨fun n => ?_, fun hopen n hn => ?_, fun y hy => ?_, fun r hr => ?_, fun e he n hn => ?_⟩
  · show s.share n + _ ≤ (decide (n < (s.received ++ [line]).length)).toNat
    have hmost := h.most n
    rw [hlength]
    by_cases hn : s.received.length = n
    · subst hn
      simp [hnext]
    · have hne : ¬some s.received.length = some n := fun heq => hn (Option.some.inj heq)
      by_cases hlt : n < s.received.length
      · simpa [hn, hlt, Nat.lt_succ_of_lt hlt] using hmost
      · have hge : ¬n < s.received.length + 1 := by omega
        simpa [hn, hlt, hge] using hmost
  · show 1 ≤ s.share n + _
    by_cases hn' : s.received.length = n
    · rw [decide_eq_true (congrArg some hn')]
      exact Nat.le_add_left _ _
    · have hlt : n < s.received.length := by
        change n < (s.received ++ [line]).length at hn
        omega
      exact (h.all hopen n hlt).trans (Nat.add_le_add_left (Nat.zero_le _) _)
  · exact ⟨getElem?_received (h.jobIds y hy).1 line, (h.jobIds y hy).2⟩
  · exact getElem?_received (h.responseIds r hr) line
  · exact getElem?_received (h.writtenIds e he n hn) line

theorem getElem?_length_append (line : Option ℕ) :
    (s.received ++ [line])[s.received.length]? = some line := by
  rw [List.getElem?_append_right le_rfl, Nat.sub_self]
  rfl

/-- A line that is refused. -/
theorem Accounted.refuse (h : s.Accounted none) (line : Option ℕ) {frame : Wire.ServerFrame}
    (hid : frame.id = line) :
    (ConnectionServer.write frameBytes { s with received := s.received ++ [line] }
      ⟨.reply s.received.length, frame⟩).Accounted none := by
  refine (h.read line).write (fun n => ?_) fun n hn => ?_
  · exact ⟨fun hn => (FrameSource.reply.inj hn) ▸ rfl, fun hn => Option.some.inj hn ▸ rfl⟩
  · rw [← FrameSource.reply.inj hn, hid]
    exact getElem?_length_append line

/-- A line whose command gets a job. -/
theorem Accounted.accept (h : s.Accounted none) (line : Option ℕ) :
    ({ s with
        received := s.received ++ [line]
        jobs := s.jobs.insertOrIgnore { number := s.received.length, id := line } } :
      ConnectionServer).Accounted none := by
  have hread := h.read line
  have hnew : s.jobs.find? s.received.length = none := by
    refine Table.find?_eq_none.mpr fun x hx hnumber => ?_
    have hnext := h.share_next
    have hcount : 0 < s.jobs.rows.countP (·.number = s.received.length) :=
      List.countP_pos_iff.mpr ⟨x, hx, decide_eq_true hnumber⟩
    unfold share at hnext
    omega
  have hrows : (s.jobs.insertOrIgnore { number := s.received.length, id := line }).rows
      = s.jobs.rows ++ [{ number := s.received.length, id := line }] := by
    rw [Table.rows_insertOrIgnore, if_pos]
    exact hnew
  have hshare : ∀ n, ({ s with
      received := s.received ++ [line]
      jobs := s.jobs.insertOrIgnore { number := s.received.length, id := line } } :
        ConnectionServer).share n
      = s.share n + (decide (some s.received.length = some n)).toNat := by
    intro n
    have hdecide : decide (some s.received.length = some n) = decide (s.received.length = n) :=
      decide_eq_decide.mpr Option.some_inj
    unfold share
    rw [hrows, List.countP_append, List.countP_singleton, hdecide]
    cases decide (s.received.length = n)
    · rfl
    · simp only [Bool.toNat_true, if_true]
      omega
  refine ⟨fun n => ?_, fun hopen n hn => ?_, fun y hy => ?_, hread.responseIds, hread.writtenIds⟩
  · rw [hshare]
    exact hread.most n
  · rw [hshare]
    exact hread.all hopen n hn
  · rcases Table.mem_insertOrIgnore.mp hy with hy | ⟨rfl, -⟩
    · exact hread.jobIds y hy
    · exact ⟨getElem?_length_append line, fun frame hframe => (by cases hframe)⟩

/-- The loop takes a response. -/
theorem Accounted.respond (h : s.Accounted none) {frame : Wire.ServerFrame}
    {responses : List (ℕ × Wire.ServerFrame)}
    (hqueue : s.responses = (number, frame) :: responses) :
    (ConnectionServer.write frameBytes { s with responses } ⟨.reply number, frame⟩).Accounted
      none := by
  have hshare : ∀ n, s.share n = ({ s with responses } : ConnectionServer).share n
      + (decide (some number = some n)).toNat := by
    intro n
    have hdecide : decide (some number = some n) = decide (number = n) :=
      decide_eq_decide.mpr Option.some_inj
    unfold share
    rw [hqueue, List.countP_cons, hdecide]
    cases decide (number = n)
    · rfl
    · simp only [Bool.toNat_true, if_true]
      omega
  have howed : ({ s with responses } : ConnectionServer).Accounted (some number) := by
    refine ⟨fun n => ?_, fun hopen n hn => ?_, h.jobIds, fun r hr => ?_, h.writtenIds⟩
    · rw [← hshare]
      exact (Nat.le_add_right _ _).trans (h.most n)
    · rw [← hshare]
      exact h.all hopen n hn
    · exact h.responseIds r (hqueue ▸ List.mem_cons_of_mem _ hr)
  refine howed.write (fun n => ?_) fun n hn => ?_
  · exact ⟨fun hn => (FrameSource.reply.inj hn) ▸ rfl, fun hn => Option.some.inj hn ▸ rfl⟩
  · rw [← FrameSource.reply.inj hn]
    exact h.responseIds (number, frame) (hqueue ▸ List.mem_cons_self)

theorem Accounted.step (h : s.Accounted none) (a : ServerStep) :
    (s.step frameBytes a).Accounted none := by
  unfold ConnectionServer.step
  split
  · exact h
  cases a with
  | receive line stamp =>
    simp only [stepOpen, receive]
    split
    · exact h.refuse none rfl
    · split
      · exact h.accept _
      · exact h.refuse _ rfl
  | acquirePermit number =>
    simp only [stepOpen]
    split
    · split
      · exact h.moveTo ‹_› fun frame hframe => (by cases hframe)
      · exact h
    · exact h
  | finish number result stamp =>
    simp only [stepOpen]
    split
    · exact h.moveTo ‹_› fun frame hframe => (by cases hframe; rfl)
    · exact h
  | timeOut number stamp =>
    simp only [stepOpen]
    split
    · exact h.moveTo ‹_› fun frame hframe => (by cases hframe; rfl)
    · exact h.moveTo ‹_› fun frame hframe => (by cases hframe; rfl)
    · exact h
  | send number =>
    simp only [stepOpen]
    split
    · split
      · exact h.send ‹_› rfl
      · exact h
    · exact h
  | respond =>
    simp only [stepOpen]
    split
    · exact h.respond ‹_›
    · exact h
  | publish frame => exact h.heard _ _
  | recv snapshot =>
    simp only [stepOpen, recv]
    split
    · exact (h.heard _ _).sync snapshot
    · split
      · exact (h.heard _ _).write_other fun _ hn => (by cases hn)
      · exact h
  | hangUp => exact h.close

theorem accounted_opened (snapshot : SyncSnapshot) :
    (opened frameBytes snapshot).Accounted none := by
  have hinit : ({} : ConnectionServer).Accounted none :=
    ⟨fun _ => Nat.zero_le _, fun _ n hn => absurd hn (Nat.not_lt_zero n),
      fun _ hx => absurd hx List.not_mem_nil, fun _ hr => absurd hr List.not_mem_nil,
      fun _ he => absurd he List.not_mem_nil⟩
  exact hinit.sync snapshot

theorem accounted_states (frameBytes : Wire.ServerFrame → ℕ) (snapshot : SyncSnapshot)
    (as : List ServerStep) :
    ∀ s ∈ states (ConnectionServer.step frameBytes) (opened frameBytes snapshot) as,
      s.Accounted none :=
  invariant_states_of_step (fun s a h => Accounted.step (s := s) h a) (accounted_opened snapshot)
    as

def workLeft (s : ConnectionServer) : ℕ :=
  if s.closed then 0 else s.jobs.weight (fun x => x.phase.work) + s.responses.length

theorem workLeft_of_open (hopen : s.closed = false) :
    s.workLeft = s.jobs.weight (fun x => x.phase.work) + s.responses.length := by
  rw [workLeft, hopen]
  rfl

theorem workLeft_write (s : ConnectionServer) (entry : WrittenFrame) :
    (write frameBytes s entry).workLeft ≤ s.workLeft := by
  rcases write_cases frameBytes s entry with heq | ⟨-, heq⟩
  · rw [heq]
    exact Nat.zero_le _
  · rw [heq]
    exact le_rfl

theorem workLeft_moveTo (hopen : s.closed = false) {x : ServerJob}
    (hx : s.jobs.find? number = some x) (hless : phase.work < x.phase.work) :
    (s.moveTo number phase).workLeft < s.workLeft := by
  have hweight := Table.weight_updateWhere_key (fun x : ServerJob => x.phase.work) hx
    (fun x => { x with phase }) fun _ => rfl
  rw [workLeft_of_open hopen, workLeft_of_open (s := s.moveTo number phase) hopen]
  change (s.moveTo number phase).jobs.weight _ + _ = _ + phase.work at hweight
  show (s.moveTo number phase).jobs.weight _ + s.responses.length < _
  omega

/-- As long as something is left to do, a step that answers does some of it. -/
theorem exists_answering (results : ℕ → Except String Wire.ServerEvent) (stamp : FrameStamp)
    (hleft : 0 < s.workLeft) :
    ∃ a, ServerStep.isAnswering results a ∧ (s.step frameBytes a).received = s.received ∧
      (s.step frameBytes a).workLeft < s.workLeft := by
  have hopen : s.closed = false := Bool.of_not_eq_true fun hclosed => by
    rw [workLeft, hclosed] at hleft
    exact Nat.lt_irrefl 0 hleft
  have hstep : ∀ a, s.step frameBytes a = s.stepOpen frameBytes a := fun a => by
    rw [step, hopen]
    rfl
  rcases hqueue : s.responses with _ | ⟨⟨number, frame⟩, responses⟩
  · have hroom : s.responses.length < responseCapacity := by
      rw [hqueue]
      exact (show 0 < responseCapacity by decide)
    by_cases hanswered : ∃ x ∈ s.jobs.rows, ∃ frame, x.phase = .answered frame
    · obtain ⟨x, hx, frame, hphase⟩ := hanswered
      have hfind := Table.find?_of_mem hx
      obtain ⟨number, id, phase⟩ := x
      change s.jobs.find? number = _ at hfind
      change phase = .answered frame at hphase
      subst hphase
      refine ⟨.send number, trivial, ?_⟩
      rw [hstep]
      simp only [stepOpen, hfind, hroom, if_true]
      have hweight := Table.weight_deleteWhere_key (fun x : ServerJob => x.phase.work) hfind
      change _ + 2 = _ at hweight
      refine ⟨trivial, ?_⟩
      rw [workLeft_of_open hopen, workLeft_of_open (by exact hopen)]
      simp only [List.length_append, List.length_singleton]
      omega
    · by_cases hpermitted : ∃ x ∈ s.jobs.rows, x.phase = .permitted
      · obtain ⟨x, hx, hphase⟩ := hpermitted
        have hfind := Table.find?_of_mem hx
        obtain ⟨number, id, phase⟩ := x
        change s.jobs.find? number = _ at hfind
        change phase = .permitted at hphase
        subst hphase
        refine ⟨.finish number (results number) stamp, rfl, ?_⟩
        rw [hstep]
        simp only [stepOpen, hfind]
        exact ⟨rfl, workLeft_moveTo hopen hfind (show 2 < 3 by decide)⟩
      · -- nobody has a permit
        have hweight : 0 < s.jobs.weight (fun x => x.phase.work) := by
          rw [workLeft_of_open hopen, hqueue] at hleft
          exact hleft
        obtain ⟨x, hx⟩ := Table.exists_mem_of_weight _ hweight
        have hfind := Table.find?_of_mem hx
        have hnone : s.jobs.rows.countP (fun x => x.phase = .permitted) = 0 :=
          List.countP_eq_zero.mpr fun y hy hphase =>
            hpermitted ⟨y, hy, of_decide_eq_true hphase⟩
        obtain ⟨number, id, phase⟩ := x
        change s.jobs.find? number = _ at hfind
        cases phase with
        | permitted => exact absurd ⟨_, hx, rfl⟩ hpermitted
        | answered frame => exact absurd ⟨_, hx, frame, rfl⟩ hanswered
        | queued =>
          refine ⟨.acquirePermit number, trivial, ?_⟩
          rw [hstep]
          simp only [stepOpen, hfind, hnone, show 0 < maxConnectionJobs by decide, if_true]
          exact ⟨rfl, workLeft_moveTo hopen hfind (show 3 < 4 by decide)⟩
  · refine ⟨.respond, trivial, ?_⟩
    rw [hstep]
    simp only [stepOpen, hqueue]
    have hless : ({ s with responses } : ConnectionServer).workLeft < s.workLeft := by
      rw [workLeft_of_open hopen, workLeft_of_open (by exact hopen), hqueue]
      exact Nat.lt_succ_self _
    refine ⟨?_, (workLeft_write _ _).trans_lt hless⟩
    rcases write_cases frameBytes { s with responses } ⟨.reply number, frame⟩
      with heq | ⟨-, heq⟩ <;> rw [heq]

/-- The invariant: what was written delivers what was published, up to `next` as long as the
connection is open. -/
def Relayed (next : ℕ) (s : ConnectionServer) : Prop :=
  ∃ n, Delivered s.published 0 s.written n ∧ (s.closed = false → n = next)

variable {next n : ℕ}

theorem Relayed.write (h : s.Relayed next) {entry : WrittenFrame}
    (hentry : Delivered s.published next [entry] n) :
    (ConnectionServer.write frameBytes s entry).Relayed n := by
  obtain ⟨k, hk, hnext⟩ := h
  rcases write_cases frameBytes s entry with heq | ⟨hopen, heq⟩
  · rw [heq]
    exact ⟨k, hk, fun hopen => by cases hopen⟩
  · rw [heq]
    exact ⟨n, hk.append (hnext hopen ▸ hentry), fun _ => rfl⟩

theorem Relayed.jump (h : s.Relayed next) (position : ℕ) :
    ({ s with position } : ConnectionServer).Relayed next := h

theorem Relayed.sync (h : s.Relayed next) (hskip : next ≤ n) (snapshot : SyncSnapshot) :
    (ConnectionServer.sync frameBytes s snapshot).Relayed n :=
  ((h.write (.sync _ hskip (.nil n))).write (.sync _ le_rfl (.nil n))).write
    (.sync _ le_rfl (.nil n))

theorem write_position (s : ConnectionServer) (entry : WrittenFrame) :
    (write frameBytes s entry).position = s.position := by
  rcases write_cases frameBytes s entry with heq | ⟨-, heq⟩ <;> rw [heq]

theorem sync_position (s : ConnectionServer) (snapshot : SyncSnapshot) :
    (sync frameBytes s snapshot).position = s.position := by
  show (write frameBytes (write frameBytes (write frameBytes s _) _) _).position = _
  rw [write_position, write_position, write_position]

theorem Relayed.reply (h : s.Relayed s.position) (frame : Wire.ServerFrame) :
    (ConnectionServer.write frameBytes s ⟨.reply number, frame⟩).Relayed
      (ConnectionServer.write frameBytes s ⟨.reply number, frame⟩).position := by
  rw [write_position]
  exact h.write (.reply number frame (.nil _))

/-- A broadcast is received, or the receiver has fallen behind. -/
theorem Relayed.recv (h : s.Relayed s.position) (snapshot : SyncSnapshot) :
    (ConnectionServer.recv frameBytes s snapshot).Relayed
      (ConnectionServer.recv frameBytes s snapshot).position := by
  unfold ConnectionServer.recv
  split
  · have hskip : s.position ≤ s.published.length - broadcastCapacity := by omega
    rw [sync_position]
    exact (h.jump _).sync hskip snapshot
  · split
    · rename_i frame hframe
      have hentry : Delivered s.published s.position [⟨.broadcast s.position, frame⟩]
          (s.position + 1) := .broadcast hframe (.nil _)
      rw [write_position]
      exact (h.jump _).write hentry
    · exact h

theorem Relayed.step (h : s.Relayed s.position) (a : ServerStep) :
    (s.step frameBytes a).Relayed (s.step frameBytes a).position := by
  unfold ConnectionServer.step
  split
  · exact h
  cases a with
  | receive line stamp =>
    simp only [stepOpen, receive]
    split
    · exact Relayed.reply (s := { s with received := s.received ++ [none] }) h _
    · split
      · exact h
      · exact Relayed.reply (s := { s with received := s.received ++ [_] }) h _
  | acquirePermit number =>
    simp only [stepOpen]
    split
    · split <;> exact h
    · exact h
  | finish number result stamp => simp only [stepOpen]; split <;> exact h
  | timeOut number stamp => simp only [stepOpen]; split <;> exact h
  | send number =>
    simp only [stepOpen]
    split
    · split <;> exact h
    · exact h
  | respond =>
    simp only [stepOpen]
    split
    · rename_i number frame responses _
      exact Relayed.reply (s := { s with responses }) h _
    · exact h
  | publish frame =>
    obtain ⟨n, hn, hnext⟩ := h
    exact ⟨n, hn.publish frame, hnext⟩
  | recv snapshot => exact h.recv snapshot
  | hangUp =>
    obtain ⟨n, hn, -⟩ := h
    exact ⟨n, hn, fun hopen => by cases hopen⟩

theorem relayed_opened (snapshot : SyncSnapshot) :
    (opened frameBytes snapshot).Relayed (opened frameBytes snapshot).position := by
  rw [opened, sync_position]
  exact Relayed.sync (s := {}) ⟨0, .nil 0, fun _ => rfl⟩ le_rfl snapshot

/-- A client gets what is broadcast in order and nothing twice. Between two hellos nothing is left
out, and behind the last one nothing but what is still to come. -/
theorem broadcastsRelayed (frameBytes : Wire.ServerFrame → ℕ) (snapshot : SyncSnapshot)
    (as : List ServerStep) :
    ∀ s ∈ states (ConnectionServer.step frameBytes) (opened frameBytes snapshot) as,
      (broadcasts s.written).Sublist s.published ∧
      (∀ earlier between later, s.written = earlier ++ between ++ later →
        (∀ entry ∈ between, entry.source ≠ .sync) → broadcasts between <:+: s.published) ∧
      (s.closed = false → ∀ earlier behind, s.written = earlier ++ behind →
        (∀ entry ∈ behind, entry.source ≠ .sync) →
        broadcasts behind ++ s.published.drop s.position <:+ s.published) := by
  intro s hs
  obtain ⟨m, hm, hnext⟩ : s.Relayed s.position := invariant_states_of_step
    (fun s a h => Relayed.step (s := s) h a) (relayed_opened snapshot) as s hs
  refine ⟨hm.sublist, fun earlier between later hwritten hsync => ?_,
    fun hopen earlier behind hwritten hsync => ?_⟩
  · rw [hwritten] at hm
    obtain ⟨k, hk, -⟩ := hm.split
    obtain ⟨n, -, hbetween⟩ := hk.split
    have hcontiguous := hbetween.contiguous hsync
    refine ⟨s.published.take n, s.published.drop k, ?_⟩
    rw [List.append_assoc, ← hcontiguous, List.take_append_drop]
  · rw [hwritten, hnext hopen] at hm
    obtain ⟨n, -, hbehind⟩ := hm.split
    rw [← hbehind.contiguous hsync]
    exact List.drop_suffix n s.published

theorem broadcastsRelayed_unread :
    [(⟨none, 1, 2, .unread 3⟩ : Wire.ServerFrame)].Sublist [⟨none, 1, 2, .unread 3⟩] :=
  (broadcastsRelayed (fun _ => 0) ⟨.connected, 0, .idle, none, ⟨1, 1⟩, ⟨1, 1⟩, ⟨1, 1⟩⟩
    [.publish ⟨none, 1, 2, .unread 3⟩, .recv ⟨.connected, 0, .idle, none, ⟨1, 1⟩, ⟨1, 1⟩, ⟨1, 1⟩⟩]
    _ (run_mem_states _ _ _)).1

end ConnectionServer

end OmarchyWhatsapp

import OmarchyWhatsapp.Inbound.Messages
import OmarchyWhatsapp.Relational.Run
import OmarchyWhatsapp.Text.Trim

/-!
# The subject of a group

`receive_message` takes the name of a group chat from the store or from the metadata of the group,
and writes it back when it has inserted the message. `process_group_event` and `sync_group_names`
fetch the metadata and store the subject. All of them write with the authority of group metadata.

The subjects that a group has had are numbered from one, and every name that comes from one of them
carries its number. A name of another source has the number zero.
-/

namespace OmarchyWhatsapp

open Relational

inductive SubjectTask where
  | processGroupEvent
  | syncGroupNames
deriving DecidableEq, Repr

inductive SubjectWriter where
  | receiveMessage
  | refresh (task : SubjectTask)
deriving DecidableEq, Repr

/-- A subject that has been fetched and has yet to be stored. -/
structure FetchedSubject where
  task : SubjectTask
  subject : String
  number : ℕ
deriving DecidableEq, Repr

/-- The message of the group that the reducer is at; it takes one message after the other. -/
inductive GroupMessage where
  | none
  /-- `group_metadata` is on its way. -/
  | fetching
  /-- The name of the chat is known. -/
  | named (chatName : String) (number : ℕ)
deriving DecidableEq, Repr

/-- A subject was stored in the place of another one. -/
structure SubjectWrite where
  writer : SubjectWriter
  replaced : ℕ
  number : ℕ
deriving DecidableEq, Repr

/-- One group. `number` belongs to the name in its row. -/
structure GroupSubject where
  store : Store
  number : ℕ := 0
  subjects : List String := []
  message : GroupMessage := .none
  fetched : List FetchedSubject := []
  writes : List SubjectWrite := []

inductive SubjectStep where
  /-- Somebody changes the subject of the group. -/
  | rename (subject : String)
  /-- `receive_message` reads the name of the chat. -/
  | readName
  /-- The metadata for the message is read at the server, or cannot be had. -/
  | fetchName (available : Bool)
  /-- The insertion of the message. -/
  | insert (insert : MessageInsert)
  /-- The write of the name after the insertion; the message is done. -/
  | writeName (inserted : Bool)
  /-- The metadata for an event or a sync is read at the server. -/
  | fetchSubject (task : SubjectTask)
  /-- One of these stores what it has fetched. -/
  | storeSubject (index : ℕ)

namespace GroupSubject

variable (jid : String)

/-- `update_group_name`. It writes a name that is not blank to the row of a group. -/
def update (s : GroupSubject) (writer : SubjectWriter) (name : String) (number : ℕ) :
    GroupSubject :=
  let updated := { s with store := (updateGroupName s.store jid name).1 }
  if trim name ≠ "" ∧ (s.store.chats.find? jid).any (·.isGroup) then
    { updated with number, writes := s.writes ++ [⟨writer, s.number, number⟩] }
  else updated

def readName (s : GroupSubject) : GroupSubject :=
  match (chatName s.store jid).filter (· != jid) with
  | some name => { s with message := .named name s.number }
  | none => { s with message := .fetching }

/-- The name from the metadata; the JID where there is none. -/
def fetchName (s : GroupSubject) (available : Bool) : GroupSubject :=
  match s.message with
  | .fetching =>
    match (if available then s.subjects.getLast?.bind nonempty else none) with
    | some name => { s with message := .named name s.subjects.length }
    | none => { s with message := .named jid 0 }
  | _ => s

/-- What an insertion writes to the chats: a row that is missing gets the name. -/
def insert (s : GroupSubject) (insert : MessageInsert) : GroupSubject :=
  match s.message with
  | .named name number =>
    let insert := { insert with
      chatName := name, isGroup := true, message := { insert.message with chatJid := jid } }
    if suppressed s.store insert.message then s
    else
      { s with
        store := touchChat s.store insert
        number := if (s.store.chats.find? jid).isSome then s.number
          else if trim name = "" ∨ trim name = jid then 0 else number }
  | _ => s

def writeName (s : GroupSubject) (inserted : Bool) : GroupSubject :=
  match s.message with
  | .named name number =>
    let done := { s with message := .none }
    if inserted ∧ name ≠ jid then done.update jid .receiveMessage name number else done
  | _ => s

def storeSubject (s : GroupSubject) (index : ℕ) : GroupSubject :=
  match s.fetched[index]? with
  | some f =>
    { s with fetched := s.fetched.eraseIdx index }.update jid (.refresh f.task) f.subject f.number
  | none => s

def step (s : GroupSubject) : SubjectStep → GroupSubject
  | .rename subject => { s with subjects := s.subjects ++ [subject] }
  | .readName => if s.message = .none then s.readName jid else s
  | .fetchName available => s.fetchName jid available
  | .insert insert => s.insert jid insert
  | .writeName inserted => s.writeName jid inserted
  | .fetchSubject task =>
    match s.subjects.getLast? with
    | some subject => { s with fetched := s.fetched ++ [⟨task, subject, s.subjects.length⟩] }
    | none => s
  | .storeSubject index => s.storeSubject jid index

/-! ## Properties -/

/-- No message stores an older subject over a newer one. -/
def NeverGoesBack (s : GroupSubject) : Prop :=
  ∀ w ∈ s.writes, w.writer = .receiveMessage → w.replaced ≤ w.number

/-- While a message holds a name, no newer subject is stored. -/
def Undisturbed (s : GroupSubject) : SubjectStep → Prop
  | .storeSubject index => ∀ f ∈ s.fetched[index]?, ∀ name number,
      s.message = .named name number → name ≠ jid → f.number ≤ number
  | _ => True

/-- A name with a number is the subject of that number. -/
def IsSubject (subjects : List String) (name : String) (number : ℕ) : Prop :=
  number ≠ 0 → ∃ subject, subjects[number - 1]? = some subject ∧ trim name = trim subject

/-- What the name in the row is, by its number. -/
def Shows (s : GroupSubject) : Prop :=
  ∀ row ∈ s.store.chats.find? jid, IsSubject s.subjects row.name s.number

/-! ## What the numbers say -/

theorem IsSubject.append {subjects : List String} {name : String} {number : ℕ}
    (h : IsSubject subjects name number) (subject : String) :
    IsSubject (subjects ++ [subject]) name number := by
  intro hnumber
  obtain ⟨subject', hsubject, hname⟩ := h hnumber
  obtain ⟨hlt, -⟩ := List.getElem?_eq_some_iff.mp hsubject
  exact ⟨subject', by rwa [List.getElem?_append_left hlt], hname⟩

theorem isSubject_getLast {subjects : List String} {subject : String}
    (h : subjects.getLast? = some subject) : IsSubject subjects subject subjects.length := by
  intro _
  exact ⟨subject, by rwa [← List.getLast?_eq_getElem?], rfl⟩

theorem IsSubject.le_length {subjects : List String} {name : String} {number : ℕ}
    (h : IsSubject subjects name number) : number ≤ subjects.length := by
  by_cases hnumber : number = 0
  · omega
  · obtain ⟨_, hsubject, -⟩ := h hnumber
    obtain ⟨hlt, -⟩ := List.getElem?_eq_some_iff.mp hsubject
    omega

theorem IsSubject.congr {subjects : List String} {name name' : String} {number : ℕ}
    (h : IsSubject subjects name number) (hname : trim name' = trim name) :
    IsSubject subjects name' number := by
  intro hnumber
  obtain ⟨subject, hsubject, htrim⟩ := h hnumber
  exact ⟨subject, hsubject, hname.trans htrim⟩

variable {jid}

theorem find?_updateGroupName (store : Store) (name : String) :
    (updateGroupName store jid name).1.chats.find? jid
      = (store.chats.find? jid).map fun row =>
        if trim name ≠ "" ∧ row.isGroup then
          { row with name := trim name, nameSource := chatNameGroupMetadata }
        else row := by
  unfold updateGroupName
  cases hrow : store.chats.find? jid with
  | none => split <;> simp [Table.find?_updateWhere, hrow]
  | some row =>
    have hjid := Table.key_of_find? hrow
    by_cases hblank : trim name = ""
    · simp [hblank, hrow]
    · rw [if_neg hblank, Table.find?_updateWhere, hrow, Option.map_some, Option.map_some]
      simp only [hjid, decide_true, Bool.true_and, ne_eq, hblank, not_false_eq_true, true_and]
      cases hgroup : row.isGroup with
      | false => simp
      | true =>
        by_cases hsame : row.name = trim name ∧ row.nameSource = chatNameGroupMetadata
        · obtain ⟨hname, hsource⟩ := hsame
          have hrow : row = { row with
              name := trim name, nameSource := chatNameGroupMetadata } := by
            rw [← hname, ← hsource]
          rw [hjid, hgroup] at hrow
          rw [if_neg (by simp [hname, hsource]), if_pos rfl]
          exact congrArg some hrow
        · simp only [Bool.true_and, Bool.or_eq_true, bne_iff_ne, if_true]
          rw [if_pos (by tauto)]

/-- The numbers are those of the names. -/
structure Numbered (jid : String) (s : GroupSubject) : Prop where
  number : s.number ≤ s.subjects.length
  row : s.Shows jid
  message : ∀ name number, s.message = .named name number → IsSubject s.subjects name number
  fetched : ∀ f ∈ s.fetched, IsSubject s.subjects f.subject f.number

variable {s : GroupSubject}

theorem Numbered.update (h : s.Numbered jid) (writer : SubjectWriter) {name : String}
    {number : ℕ} (hname : IsSubject s.subjects name number) :
    (s.update jid writer name number).Numbered jid := by
  have hfind := @find?_updateGroupName jid s.store name
  unfold GroupSubject.update
  dsimp only
  split
  · rename_i hwritten
    refine ⟨hname.le_length, fun row hrow => ?_, h.message, h.fetched⟩
    rw [hfind] at hrow
    obtain ⟨old, hold, rfl⟩ := Option.map_eq_some_iff.mp hrow
    rw [hold, Option.any_some] at hwritten
    rw [if_pos hwritten]
    exact hname.congr (trim_trim name)
  · rename_i hskipped
    refine ⟨h.number, fun row hrow => ?_, h.message, h.fetched⟩
    rw [hfind] at hrow
    obtain ⟨old, hold, rfl⟩ := Option.map_eq_some_iff.mp hrow
    rw [hold, Option.any_some] at hskipped
    rw [if_neg hskipped]
    exact h.row old hold

theorem Numbered.readName (h : s.Numbered jid) : (s.readName jid).Numbered jid := by
  unfold GroupSubject.readName
  split
  · rename_i name hname
    refine ⟨h.number, h.row, fun name' number' heq => ?_, h.fetched⟩
    cases heq
    obtain ⟨hstored, -⟩ := Option.filter_eq_some_iff.mp hname
    obtain ⟨row, hrow, rfl⟩ := Option.map_eq_some_iff.mp hstored
    exact h.row row (Option.filter_eq_some_iff.mp hrow).1
  · exact ⟨h.number, h.row, fun _ _ heq => (by cases heq), h.fetched⟩

theorem Numbered.fetchName (h : s.Numbered jid) (available : Bool) :
    (s.fetchName jid available).Numbered jid := by
  unfold GroupSubject.fetchName
  split
  · split
    · rename_i name hname
      refine ⟨h.number, h.row, fun name' number' heq => ?_, h.fetched⟩
      cases heq
      split at hname
      · obtain ⟨subject, hlast, hsubject⟩ := Option.bind_eq_some_iff.mp hname
        refine (isSubject_getLast hlast).congr ?_
        rw [← (nonempty_eq_some.mp hsubject).1, trim_trim]
      · cases hname
    · refine ⟨h.number, h.row, fun name' number' heq => ?_, h.fetched⟩
      cases heq
      exact fun hzero => absurd rfl hzero
  · exact h

theorem find?_touchChat (store : Store) (insert : MessageInsert) :
    (touchChat store insert).chats.find? insert.message.chatJid
      = some ((store.chats.find? insert.message.chatJid).elim (proposedChat insert)
        (fun row => mergePreview row (proposedChat insert))) :=
  (Table.find?_upsert store.chats (proposedChat insert) mergePreview (fun _ _ => rfl) _).trans
    (if_pos rfl)

theorem Numbered.insert (h : s.Numbered jid) (insert : MessageInsert) :
    (s.insert jid insert).Numbered jid := by
  unfold GroupSubject.insert
  split
  · rename_i name number hmessage
    dsimp only
    split
    · exact h
    · have hmessage := h.message name number hmessage
      cases hrow : s.store.chats.find? jid with
      | some row =>
        refine ⟨h.number, fun row' hrow' => ?_, h.message, h.fetched⟩
        obtain rfl := Option.some.inj ((find?_touchChat s.store _).symm.trans hrow')
        dsimp only
        rw [hrow]
        exact h.row row hrow
      | none =>
        refine ⟨?_, fun row' hrow' => ?_, h.message, h.fetched⟩
        · show (if trim name = "" ∨ trim name = jid then 0 else number) ≤ _
          split
          · exact Nat.zero_le _
          · exact hmessage.le_length
        · obtain rfl := Option.some.inj ((find?_touchChat s.store _).symm.trans hrow')
          dsimp only
          rw [hrow]
          show IsSubject s.subjects (chatNameCandidate name jid _).1
            (if trim name = "" ∨ trim name = jid then 0 else number)
          unfold chatNameCandidate
          split
          · exact fun hzero => absurd rfl hzero
          · exact hmessage.congr (trim_trim name)
  · exact h

theorem Numbered.step (h : s.Numbered jid) (a : SubjectStep) : (s.step jid a).Numbered jid := by
  cases a with
  | rename subject =>
    refine ⟨?_, fun row hrow => (h.row row hrow).append subject,
      fun name number hname => (h.message name number hname).append subject,
      fun f hf => (h.fetched f hf).append subject⟩
    have hnumber := h.number
    simp only [GroupSubject.step, List.length_append]
    omega
  | readName =>
    rw [GroupSubject.step]
    split
    · exact h.readName
    · exact h
  | fetchName available => exact h.fetchName available
  | insert insert => exact h.insert insert
  | writeName inserted =>
    rw [GroupSubject.step, GroupSubject.writeName]
    split
    · rename_i name number hmessage
      have hdone : ({ s with message := .none } : GroupSubject).Numbered jid :=
        ⟨h.number, h.row, fun _ _ heq => (by cases heq), h.fetched⟩
      dsimp only
      split
      · exact hdone.update _ (h.message name number hmessage)
      · exact hdone
    · exact h
  | fetchSubject task =>
    rw [GroupSubject.step]
    split
    · rename_i subject hlast
      refine ⟨h.number, h.row, h.message, fun f hf => ?_⟩
      rcases List.mem_append.mp hf with hf | hf
      · exact h.fetched f hf
      · rw [List.mem_singleton.mp hf]
        exact isSubject_getLast hlast
    · exact h
  | storeSubject index =>
    rw [GroupSubject.step, GroupSubject.storeSubject]
    split
    · rename_i f hf
      have hrest : ({ s with fetched := s.fetched.eraseIdx index } : GroupSubject).Numbered jid :=
        ⟨h.number, h.row, h.message, fun g hg => h.fetched g (List.mem_of_mem_eraseIdx hg)⟩
      exact hrest.update _ (h.fetched f (List.mem_of_getElem? hf))
    · exact h

/-- The message holds no name that is older than the one in the row. -/
structure Kept (jid : String) (s : GroupSubject) : Prop where
  held : ∀ name number, s.message = .named name number → name ≠ jid → s.number ≤ number
  writes : s.NeverGoesBack

theorem Kept.update (h : s.Kept jid) {writer : SubjectWriter} {name : String} {number : ℕ}
    (hheld : ∀ held n, s.message = .named held n → held ≠ jid → number ≤ n)
    (hwriter : writer = .receiveMessage → s.number ≤ number) :
    (s.update jid writer name number).Kept jid := by
  unfold GroupSubject.update
  dsimp only
  split
  · refine ⟨hheld, fun w hw hmessage => ?_⟩
    rcases List.mem_append.mp hw with hw | hw
    · exact h.writes w hw hmessage
    · rw [List.mem_singleton.mp hw] at hmessage ⊢
      exact hwriter hmessage
  · exact ⟨h.held, h.writes⟩

theorem Kept.step (hnumbered : s.Numbered jid) (h : s.Kept jid) {a : SubjectStep}
    (hundisturbed : s.Undisturbed jid a) : (s.step jid a).Kept jid := by
  cases a with
  | rename subject => exact ⟨h.held, h.writes⟩
  | readName =>
    rw [GroupSubject.step]
    split
    · unfold GroupSubject.readName
      split
      · refine ⟨fun name number heq _ => ?_, h.writes⟩
        cases heq
        exact Nat.le_refl _
      · exact ⟨fun _ _ heq => (by cases heq), h.writes⟩
    · exact h
  | fetchName available =>
    rw [GroupSubject.step, GroupSubject.fetchName]
    split
    · split
      · refine ⟨fun name number heq _ => ?_, h.writes⟩
        cases heq
        exact hnumbered.number
      · refine ⟨fun name number heq hne => ?_, h.writes⟩
        cases heq
        exact absurd rfl hne
    · exact h
  | insert insert =>
    rw [GroupSubject.step, GroupSubject.insert]
    split
    · rename_i name number hmessage
      dsimp only
      split
      · exact h
      · refine ⟨fun name' number' heq hne => ?_, h.writes⟩
        have hheld := h.held name' number' heq hne
        rw [hmessage] at heq
        cases heq
        dsimp only
        split
        · exact hheld
        · split <;> omega
    · exact h
  | writeName inserted =>
    rw [GroupSubject.step, GroupSubject.writeName]
    split
    · rename_i name number hmessage
      have hdone : ({ s with message := .none } : GroupSubject).Kept jid :=
        ⟨fun _ _ heq => (by cases heq), h.writes⟩
      dsimp only
      split
      · rename_i hwrites
        refine hdone.update (fun _ _ heq => (by cases heq)) fun _ => ?_
        exact h.held name number hmessage hwrites.2
      · exact hdone
    · exact h
  | fetchSubject task =>
    rw [GroupSubject.step]
    split <;> exact ⟨h.held, h.writes⟩
  | storeSubject index =>
    rw [GroupSubject.step, GroupSubject.storeSubject]
    split
    · rename_i f hf
      have hrest : ({ s with fetched := s.fetched.eraseIdx index } : GroupSubject).Kept jid :=
        ⟨h.held, h.writes⟩
      refine hrest.update (fun name number heq hne => ?_) (fun heq => (by cases heq))
      exact hundisturbed f hf name number heq hne
    · exact h

/-- The group at first: the name in its row is of no known number. -/
def start (store : Store) (subjects : List String) : GroupSubject := { store, subjects }

theorem numbered_start (store : Store) (subjects : List String) :
    (start store subjects).Numbered jid :=
  ⟨Nat.zero_le _, fun _ _ hzero => absurd rfl hzero, fun _ _ heq => (by cases heq),
    fun _ hf => absurd hf List.not_mem_nil⟩

/-- In every run the number in the row is that of its name. -/
theorem shows_of_states (jid : String) (store : Store) (subjects : List String)
    (as : List SubjectStep) :
    ∀ s' ∈ states (step jid) (start store subjects) as, s'.Shows jid := fun s' hs' =>
  (invariant_states_of_step (I := Numbered jid) (fun _ a h => h.step a)
    (numbered_start store subjects) as s' hs').row

/-- Where no newer subject is stored while a message holds a name, no message stores an older
subject over a newer one. -/
theorem neverGoesBack_of_undisturbed {store : Store} {subjects : List String}
    {as : List SubjectStep}
    (h : Guarded (step jid) (Undisturbed jid) (start store subjects) as) :
    ∀ s' ∈ states (step jid) (start store subjects) as, s'.NeverGoesBack := by
  intro s' hs'
  have hboth := invariant_states (I := fun s => s.Numbered jid ∧ s.Kept jid)
    (fun s a hs ha => ⟨hs.1.step a, Kept.step hs.1 hs.2 ha⟩)
    ⟨numbered_start store subjects, fun _ _ heq => (by cases heq),
      fun _ hw => absurd hw List.not_mem_nil⟩ h s' hs'
  exact hboth.2.writes

def friends : Store where
  chats := ⟨[{ jid := "1-2@g.us", name := "", isGroup := true }], by decide⟩

/-- An event stores the subject, and then a message reads it and writes it back. -/
theorem neverGoesBack_of_undisturbed_friends :
    (run (step "1-2@g.us") (start friends ["Friends"]) [.fetchSubject .processGroupEvent,
      .storeSubject 0, .readName, .writeName true]).NeverGoesBack :=
  @neverGoesBack_of_undisturbed "1-2@g.us" friends ["Friends"]
    [.fetchSubject .processGroupEvent, .storeSubject 0, .readName, .writeName true]
    ⟨trivial, fun _ _ _ _ heq _ => (by cases heq), trivial, trivial, trivial⟩ _
    (run_mem_states _ _ _)

/-- The group is renamed while a message holds its old subject. -/
def renamedMeanwhile : List SubjectStep :=
  [.fetchSubject .processGroupEvent, .storeSubject 0, .readName, .rename "Best friends",
    .fetchSubject .processGroupEvent, .storeSubject 0, .writeName true]

theorem goesBack_renamedMeanwhile :
    ¬(run (step "1-2@g.us") (start friends ["Friends"]) renamedMeanwhile).NeverGoesBack ∧
      ((run (step "1-2@g.us") (start friends ["Friends"]) renamedMeanwhile).store.chats.find?
        "1-2@g.us").map (·.name) = some "Friends" := by
  constructor
  · intro h
    have hback := h ⟨.receiveMessage, 2, 1⟩ (by decide +kernel) rfl
    exact absurd hback (by decide)
  · decide +kernel

end GroupSubject

end OmarchyWhatsapp

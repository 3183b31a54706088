import OmarchyWhatsapp.Inbound.Reactions
import OmarchyWhatsapp.Relational.Run

/-!
# The newest reaction

The store orders the reactions of a person to a message by the second. What it shows after any
deliveries is decided within the newest second: by a removal, or else by the last reaction that
was delivered.
-/

namespace OmarchyWhatsapp

open Relational

/-! ## What leaves the reactions alone -/

/-- The reactions and their tombstones stay. -/
structure SameReactions (s s' : Store) : Prop where
  reactions : s'.reactions = s.reactions
  tombstones : s'.reactionTombstones = s.reactionTombstones

section Frame

variable (plan : QueryPlan) (s : Store)

theorem SameReactions.refl : SameReactions s s := ⟨rfl, rfl⟩

theorem SameReactions.trans {s s' s'' : Store} (h : SameReactions s s')
    (h' : SameReactions s' s'') : SameReactions s s'' :=
  ⟨h'.reactions.trans h.reactions, h'.tombstones.trans h.tombstones⟩

/-- A loop whose steps leave the reactions alone. -/
theorem SameReactions.foldl {α β : Type} {f : β → α → β} (store : β → Store)
    (hstep : ∀ b a, SameReactions (store b) (store (f b a))) (l : List α) (b : β) :
    SameReactions (store b) (store (l.foldl f b)) := by
  induction l generalizing b with
  | nil => exact SameReactions.refl _
  | cons a l ih => exact (hstep b a).trans (ih (f b a))

theorem SameReactions.reaction {s s' : Store} (h : SameReactions s s')
    (k : String × String × String) : s'.reaction k = s.reaction k := by
  rw [Store.reaction, h.reactions, h.tombstones]
  rfl

theorem sameReactions_updateContactNameInto (jid name : String) (source : ℕ) :
    SameReactions s (updateContactNameInto s jid name source).1 := by
  unfold updateContactNameInto
  split_ifs <;> exact ⟨rfl, rfl⟩

theorem sameReactions_learnPushName (senderJid pushName : String) :
    SameReactions s (learnPushName s senderJid pushName) := by
  unfold learnPushName
  split
  · exact sameReactions_updateContactNameInto s _ _ _
  · exact SameReactions.refl s

theorem sameReactions_insertMessageInto (insert : MessageInsert) :
    SameReactions s (insertMessageInto s insert).1 := by
  unfold insertMessageInto
  split
  · exact SameReactions.refl s
  · have hrevived : SameReactions s (reviveChat s insert) := by
      unfold reviveChat
      split <;> exact ⟨rfl, rfl⟩
    have hstored : SameReactions s
        (storeMessage (touchChat (reviveChat s insert) insert) insert).1 :=
      hrevived.trans ⟨rfl, rfl⟩
    refine hstored.trans ?_
    unfold queueReadIntent
    split <;> exact ⟨rfl, rfl⟩

theorem sameReactions_insertMessageInner (insert : MessageInsert) :
    SameReactions s (insertMessageInner plan s insert).1 :=
  (sameReactions_insertMessageInto s insert).trans ⟨rfl, rfl⟩

theorem sameReactions_persistMessage (context : LiveContext) (message : Message)
    (chatName : String) (isGroup : Bool) :
    SameReactions s (persistMessage plan s context message chatName isGroup).1 := by
  unfold persistMessage
  split <;> exact sameReactions_insertMessageInner plan s _

theorem sameReactions_persistParts (body : Body) (info : MessageInfo) (message : Message)
    (chatName : String) (inserted : Bool) :
    SameReactions s (persistParts plan s body info message chatName inserted) := by
  unfold persistParts
  extract_lets withSecret withDownloads named
  have hsecret : SameReactions s withSecret := by
    dsimp only [withSecret]
    split
    · unfold storePollSecret
      split_ifs <;> exact ⟨rfl, rfl⟩
    · exact SameReactions.refl s
  have hdownloads : SameReactions withSecret withDownloads := by
    apply SameReactions.foldl id
    exact fun _ _ => ⟨rfl, rfl⟩
  have hnamed : SameReactions withDownloads named := by
    dsimp only [named]
    split
    · unfold updateGroupName
      split_ifs <;> exact ⟨rfl, rfl⟩
    · exact SameReactions.refl withDownloads
  have hall : SameReactions s named := hsecret.trans (hdownloads.trans hnamed)
  split
  · exact hall.trans ⟨rfl, rfl⟩
  · exact hall

theorem sameReactions_receiveMessage (resolve : String → String) (context : LiveContext)
    (body : Body) (info : MessageInfo) :
    SameReactions s (receiveMessage plan resolve s context body info) := by
  unfold receiveMessage
  split
  · exact SameReactions.refl s
  · dsimp only
    split
    · exact sameReactions_learnPushName s _ _
    · exact (sameReactions_learnPushName s _ _).trans
        ((sameReactions_persistMessage plan _ _ _ _ _).trans
          (sameReactions_persistParts plan _ _ _ _ _ _))

theorem sameReactions_insertHistoryMessageInto (chat : Chat) (message : Message) :
    SameReactions s (insertHistoryMessageInto plan s chat message).1 := by
  have hlearned : SameReactions s (learnSenderName s message) := by
    unfold learnSenderName
    split
    · exact sameReactions_updateContactNameInto s _ _ _
    · exact SameReactions.refl s
  have hinserted := hlearned.trans (sameReactions_insertMessageInto _ (historyInsert chat message))
  unfold insertHistoryMessageInto
  dsimp only
  split
  · exact hinserted
  · split
    · exact hinserted
    · exact hinserted.trans ⟨rfl, rfl⟩

theorem sameReactions_insertHistoryConversation (chat : Chat) (messages : List Message) :
    SameReactions s (insertHistoryConversation plan s chat messages).1 := by
  have hchat : SameReactions s (insertHistoryChatInto s chat) := by
    unfold insertHistoryChatInto
    split <;> exact ⟨rfl, rfl⟩
  have hmessages : SameReactions (insertHistoryChatInto s chat)
      (insertHistoryMessages plan (insertHistoryChatInto s chat) chat messages).1 := by
    unfold insertHistoryMessages
    refine SameReactions.foldl Prod.fst (fun acc message => ?_) messages
      (insertHistoryChatInto s chat, false)
    exact sameReactions_insertHistoryMessageInto plan acc.1 chat message
  exact hchat.trans (hmessages.trans ⟨rfl, rfl⟩)

theorem sameReactions_ingestConversation (normalize : String → String)
    (aliases : String → Option String) (conversation : HistoryConversation) :
    SameReactions s (ingestConversation plan normalize aliases s conversation) := by
  unfold ingestConversation
  dsimp only
  split
  · exact SameReactions.refl s
  · exact sameReactions_insertHistoryConversation plan s _ _

end Frame

/-! ## What a delivery applies -/

section Deliveries

variable {plan : QueryPlan} {s : Store} {k : String × String × String}

/-- An event has the emoji of its reaction and the second of its sender's clock. -/
theorem ReactionDelivery.event_eq {d : ReactionDelivery} {r : ReactionMessage} {e : ReactionRow}
    (hr : (r, e) ∈ d.reactions) : e.emoji = r.emoji ∧ ∀ t ∈ r.seconds, e.timestamp = t := by
  cases d with
  | live resolve context body reaction info =>
    rw [reactions] at hr
    split at hr
    · cases hr
    · rw [Option.mem_toList, Option.bind_eq_some_iff] at hr
      obtain ⟨r', -, hr⟩ := hr
      obtain ⟨e', he', hpair⟩ := Option.map_eq_some_iff.mp hr
      obtain ⟨rfl, rfl⟩ := Prod.mk.inj hpair
      simp only [receivedReaction, Option.bind_eq_bind, Option.bind_eq_some_iff, Option.pure_def,
        Option.some.injEq] at he'
      obtain ⟨target, -, messageId, -, rfl⟩ := he'
      refine ⟨rfl, fun t ht => ?_⟩
      rw [Option.mem_def.mp ht]
      rfl
  | history normalize aliases conversation entries =>
    rw [reactions] at hr
    split at hr
    · cases hr
    · obtain ⟨entry, -, hr⟩ := List.mem_filterMap.mp hr
      obtain ⟨r', -, hr⟩ := Option.bind_eq_some_iff.mp hr
      obtain ⟨e', he', hpair⟩ := Option.map_eq_some_iff.mp hr
      obtain ⟨rfl, rfl⟩ := Prod.mk.inj hpair
      simp only [historyReaction, Option.bind_eq_bind, Option.bind_eq_some_iff, Option.pure_def,
        Option.some.injEq] at he'
      obtain ⟨envelopeKey, -, target, -, messageId, -, rfl⟩ := he'
      refine ⟨rfl, fun t ht => ?_⟩
      rw [Option.mem_def.mp ht]
      rfl

/-- A delivery applies the events of its reactions, in their order. -/
theorem ReactionDelivery.reaction_deliver (d : ReactionDelivery) :
    (d.deliver plan s).reaction k
      = ((d.reactions.map (·.2)).foldl receiveReaction s).reaction k := by
  cases d with
  | live resolve context body reaction info =>
    rw [deliver, receivePayload, reactions]
    split
    · rfl
    · have hlearned := sameReactions_learnPushName s (resolve info.source.sender)
        ((nonempty info.pushName).getD (resolve info.source.sender))
      dsimp only
      cases hevent : reaction.bind (receivedReaction resolve info) with
      | none =>
        have hnone :
            (reaction.bind fun r => (receivedReaction resolve info r).map (r, ·)) = none := by
          cases reaction with
          | none => rfl
          | some r =>
            rw [Option.bind_some] at hevent ⊢
            rw [hevent]
            rfl
        rw [hnone]
        exact (sameReactions_receiveMessage plan s resolve context body info).reaction k
      | some event =>
        obtain ⟨r, rfl, hr⟩ := Option.bind_eq_some_iff.mp hevent
        rw [Option.bind_some, hr]
        rw [Option.map_some, Option.toList_some, List.map_singleton, List.foldl_cons,
          List.foldl_nil, reaction_receiveReaction, reaction_receiveReaction, hlearned.reaction]
  | history normalize aliases conversation entries =>
    rw [deliver, ingestEntries, reactions]
    dsimp only
    split
    · rfl
    · rw [(sameReactions_ingestConversation plan _ normalize aliases _).reaction]
      have hevents : entries.filterMap
          (·.event normalize aliases (conversation.chatJid normalize aliases))
          = (entries.filterMap fun entry => entry.reaction.bind fun r =>
              (historyReaction normalize aliases (conversation.chatJid normalize aliases)
                entry.wire r).map (r, ·)).map (·.2) := by
        rw [List.map_filterMap]
        refine congrArg (fun f => entries.filterMap f) (funext fun entry => ?_)
        unfold HistoryEntry.event
        cases entry.reaction with
        | none => rfl
        | some r =>
          rw [Option.bind_some, Option.bind_some, Option.map_map]
          cases historyReaction normalize aliases (conversation.chatJid normalize aliases)
            entry.wire r <;> rfl
      rw [hevents]

/-- A run of deliveries, at one key. -/
theorem ReactionDelivery.reaction_run (plan : QueryPlan) (s : Store)
    (k : String × String × String) (ds : List ReactionDelivery) :
    (run (deliver plan) s ds).reaction k
      = (((ds.flatMap reactions).filter (fun r => r.2.key = k)).map (·.2)).foldl arrive
          (s.reaction k) := by
  induction ds generalizing s with
  | nil => rfl
  | cons d ds ih =>
    rw [run_cons, ih, reaction_deliver, reaction_foldl, List.flatMap_cons, List.filter_append,
      List.map_append, List.foldl_append, List.filter_map]
    rfl

/-! ## The newest second -/

/-- The emoji that is shown. -/
def Store.visibleEmoji (s : Store) (k : String × String × String) : Option String :=
  (s.reactions.find? k).map (·.emoji)

/-- What the reaction should show when it is the newest. -/
def ReactionMessage.shown (reaction : ReactionMessage) : Option String :=
  if reaction.emoji = "" then none else some reaction.emoji

theorem ReactionMessage.NoLater.seconds {x m : ReactionMessage} (h : x.NoLater m) :
    ∃ t ∈ x.seconds, ∃ t' ∈ m.seconds, t ≤ t' := by
  obtain ⟨t, ht, t', ht', hle⟩ := h
  exact ⟨t / 1000, Option.mem_map_of_mem _ ht, t' / 1000, Option.mem_map_of_mem _ ht',
    Int.ediv_le_ediv (by decide) hle⟩

/-- The reactions of the newest second decide: a removal, or else the last that is delivered. -/
theorem visibleEmoji_run (hfresh : s.reaction k = {}) (ds : List ReactionDelivery)
    {m : ReactionMessage} (hm : m ∈ ds.flatMap (·.reactionsOf k))
    (hnewest : ∀ x ∈ ds.flatMap (·.reactionsOf k), x.NoLater m) :
    (run (ReactionDelivery.deliver plan) s ds).visibleEmoji k
      = if ∃ x ∈ ds.flatMap (·.reactionsOf k), x.emoji = "" ∧ x.seconds = m.seconds then none
        else ((ds.flatMap (·.reactionsOf k)).filter
          (fun x => x.seconds = m.seconds)).getLast?.map (·.emoji) := by
  -- each reaction with its event
  set pairs := (ds.flatMap ReactionDelivery.reactions).filter (fun r => r.2.key = k) with hpairs
  have hwires : ds.flatMap (·.reactionsOf k) = pairs.map (·.1) := by
    rw [hpairs, List.filter_flatMap, List.map_flatMap]
    rfl
  have hpair : ∀ p ∈ pairs, p.2.emoji = p.1.emoji ∧ p.1.seconds = some p.2.timestamp := by
    intro p hp
    obtain ⟨d, -, hd⟩ := List.mem_flatMap.mp (List.mem_of_mem_filter hp)
    obtain ⟨hemoji, htime⟩ := ReactionDelivery.event_eq (r := p.1) (e := p.2) hd
    obtain ⟨t, ht, -⟩ := (hnewest p.1 (hwires ▸ List.mem_map_of_mem hp)).seconds
    exact ⟨hemoji, by rw [htime t ht, Option.mem_def.mp ht]⟩
  rw [hwires] at hm hnewest ⊢
  obtain ⟨newest, hmem, rfl⟩ := List.mem_map.mp hm
  have htop : ∀ e ∈ pairs.map (·.2), e.timestamp ≤ newest.2.timestamp := by
    intro e he
    obtain ⟨p, hp, rfl⟩ := List.mem_map.mp he
    obtain ⟨t, ht, t', ht', hle⟩ := (hnewest p.1 (List.mem_map_of_mem hp)).seconds
    rw [(hpair p hp).2] at ht
    rw [(hpair newest hmem).2] at ht'
    rw [Option.some.inj ht, Option.some.inj ht']
    exact hle
  have hsame : ∀ p ∈ pairs, p.1.seconds = newest.1.seconds ↔
      p.2.timestamp = newest.2.timestamp := by
    intro p hp
    rw [(hpair p hp).2, (hpair newest hmem).2, Option.some_inj]
  have hrun := congrArg Register.shown (ReactionDelivery.reaction_run plan s k ds)
  rw [hfresh, Register.shown_foldl_of_top (List.mem_map_of_mem hmem) htop] at hrun
  have hremoved : (∃ e ∈ pairs.map (·.2), e.removes = true ∧ e.timestamp = newest.2.timestamp) ↔
      ∃ x ∈ pairs.map (·.1), x.emoji = "" ∧ x.seconds = newest.1.seconds := by
    constructor
    · rintro ⟨_, he, hremoves, htime⟩
      obtain ⟨p, hp, rfl⟩ := List.mem_map.mp he
      refine ⟨p.1, List.mem_map_of_mem hp, ?_, (hsame p hp).mpr htime⟩
      rw [← (hpair p hp).1]
      exact of_decide_eq_true hremoves
    · rintro ⟨_, hx, hemoji, htime⟩
      obtain ⟨p, hp, rfl⟩ := List.mem_map.mp hx
      refine ⟨p.2, List.mem_map_of_mem hp, decide_eq_true ?_, (hsame p hp).mp htime⟩
      rw [(hpair p hp).1, hemoji]
  rw [Store.visibleEmoji, show (run (ReactionDelivery.deliver plan) s ds).reactions.find? k = _
    from hrun]
  by_cases hgone : ∃ x ∈ pairs.map (·.1), x.emoji = "" ∧ x.seconds = newest.1.seconds
  · rw [if_pos hgone, if_pos (hremoved.mpr hgone)]
    rfl
  · rw [if_neg hgone, if_neg (mt hremoved.mp hgone), List.filter_map, List.filter_map,
      List.getLast?_map, List.getLast?_map, Option.map_map, Option.map_map]
    have hfilter : pairs.filter ((fun e => decide (e.timestamp = newest.2.timestamp)) ∘ (·.2))
        = pairs.filter ((fun x => decide (x.seconds = newest.1.seconds)) ∘ (·.1)) :=
      List.filter_congr fun p hp => decide_eq_decide.mpr (hsame p hp).symm
    rw [hfilter]
    refine Option.map_congr fun p hp => ?_
    exact (hpair p (List.mem_of_mem_filter (List.mem_of_getLast? hp))).1

/-- After all deliveries of a person's reactions to a message, the newest by the clock of its
sender is shown, if and only if it is a removal, or no removal has its second and the last
delivered of that second has its emoji. -/
theorem newest_reaction_shown_iff (plan : QueryPlan) (s : Store) (k : String × String × String)
    (hfresh : s.reaction k = {}) (ds : List ReactionDelivery) (m : ReactionMessage)
    (hm : m ∈ ds.flatMap (·.reactionsOf k))
    (hnewest : ∀ x ∈ ds.flatMap (·.reactionsOf k), x.NoLater m) :
    (run (ReactionDelivery.deliver plan) s ds).visibleEmoji k = m.shown ↔
      m.emoji = "" ∨
        (∀ x ∈ ds.flatMap (·.reactionsOf k), x.seconds = m.seconds → x.emoji ≠ "") ∧
        ∀ x ∈ ((ds.flatMap (·.reactionsOf k)).filter (fun x => x.seconds = m.seconds)).getLast?,
          x.emoji = m.emoji := by
  rw [visibleEmoji_run hfresh ds hm hnewest, ReactionMessage.shown]
  by_cases hremoval : m.emoji = ""
  · rw [if_pos hremoval, if_pos ⟨m, hm, hremoval, rfl⟩]
    exact iff_of_true rfl (Or.inl hremoval)
  rw [if_neg hremoval]
  by_cases hgone : ∃ x ∈ ds.flatMap (·.reactionsOf k), x.emoji = "" ∧ x.seconds = m.seconds
  · rw [if_pos hgone]
    obtain ⟨x, hx, hemoji, htime⟩ := hgone
    refine iff_of_false nofun ?_
    rintro (h | ⟨h, -⟩)
    · exact hremoval h
    · exact h x hx htime hemoji
  · rw [if_neg hgone]
    have hnone : ∀ x ∈ ds.flatMap (·.reactionsOf k), x.seconds = m.seconds → x.emoji ≠ "" :=
      fun x hx htime hemoji => hgone ⟨x, hx, hemoji, htime⟩
    have hnewestSecond : m ∈ (ds.flatMap (·.reactionsOf k)).filter
        (fun x => x.seconds = m.seconds) := List.mem_filter.mpr ⟨hm, decide_eq_true rfl⟩
    cases hlast : ((ds.flatMap (·.reactionsOf k)).filter
        (fun x => x.seconds = m.seconds)).getLast? with
    | none =>
      rw [List.getLast?_eq_none_iff.mp hlast] at hnewestSecond
      cases hnewestSecond
    | some last =>
      rw [Option.map_some, Option.some_inj]
      constructor
      · intro h
        refine Or.inr ⟨hnone, fun x hx => ?_⟩
        rw [← Option.some.inj hx, h]
      · rintro (h | ⟨-, h⟩)
        · exact absurd h hremoval
        · exact h last rfl

/-- A reaction to message `a` of chat `1`, at a time in milliseconds. -/
def reactionAt (emoji : String) (senderTimestampMs : ℤ) : ReactionMessage where
  key := some { id := some "a", fromMe := some false, participant := none }
  text := some emoji
  senderTimestampMs := some senderTimestampMs

/-- A payload without text and media. -/
def emptyBody : Body where
  textContent := none
  caption := none
  mediaText := fun _ => none
  media := fun _ _ _ _ => none
  quote := none

/-- A reaction of `2` that arrives live. -/
def liveReaction (reaction : ReactionMessage) : ReactionDelivery :=
  .live (fun jid => jid) ⟨false, none⟩ emptyBody (some reaction)
    { source := { chat := "1", sender := "2", isFromMe := false, isGroup := true }
      id := "r"
      pushName := ""
      timestamp := 0 }

/-- The same reaction in a history sync. -/
def replayedReaction (reaction : ReactionMessage) : ReactionDelivery :=
  .history (fun jid => jid) (fun _ => none) { id := "1", messages := [] }
    [{ wire := {
        key := some { id := some "r", fromMe := some false, participant := some "2" }
        message := some emptyBody
        messageTimestamp := some 0 }
       reaction := some reaction }]

/-- A reaction, its removal and another reaction, each in its own second and out of order. -/
theorem newest_reaction_shown_iff_replayed :
    (run (ReactionDelivery.deliver .stable) Store.empty
      [replayedReaction (reactionAt "❤" 6200), liveReaction (reactionAt "👍" 4000),
        liveReaction (reactionAt "" 5100), liveReaction (reactionAt "❤" 6200)]).visibleEmoji
          ("1", "a", "2") = some "❤" := by
  have hwires : [replayedReaction (reactionAt "❤" 6200), liveReaction (reactionAt "👍" 4000),
      liveReaction (reactionAt "" 5100), liveReaction (reactionAt "❤" 6200)].flatMap
        (·.reactionsOf ("1", "a", "2"))
      = [reactionAt "❤" 6200, reactionAt "👍" 4000, reactionAt "" 5100, reactionAt "❤" 6200] := rfl
  refine (newest_reaction_shown_iff .stable Store.empty ("1", "a", "2") rfl _
    (reactionAt "❤" 6200) ?_ ?_).mpr (Or.inr ⟨?_, ?_⟩)
  · rw [hwires]
    exact List.mem_cons_self
  · rw [hwires]
    simp only [List.mem_cons, List.not_mem_nil, or_false, forall_eq_or_imp, forall_eq]
    exact ⟨⟨6200, rfl, 6200, rfl, by decide⟩, ⟨4000, rfl, 6200, rfl, by decide⟩,
      ⟨5100, rfl, 6200, rfl, by decide⟩, 6200, rfl, 6200, rfl, by decide⟩
  · rw [hwires]
    decide
  · rw [hwires]
    decide

/-- A reaction that replaces a removed one within a second is not shown. -/
theorem reaction_within_second_hidden :
    let ds := [liveReaction (reactionAt "👍" 4000), liveReaction (reactionAt "" 5100),
      liveReaction (reactionAt "❤" 5900)]
    ¬∀ m ∈ ds.flatMap (·.reactionsOf ("1", "a", "2")),
      (∀ x ∈ ds.flatMap (·.reactionsOf ("1", "a", "2")), x.NoLater m) →
        (run (ReactionDelivery.deliver .stable) Store.empty ds).visibleEmoji ("1", "a", "2")
          = m.shown := by
  intro ds h
  have hwires : ds.flatMap (·.reactionsOf ("1", "a", "2"))
      = [reactionAt "👍" 4000, reactionAt "" 5100, reactionAt "❤" 5900] := rfl
  have hnewest : ∀ x ∈ ds.flatMap (·.reactionsOf ("1", "a", "2")),
      x.NoLater (reactionAt "❤" 5900) := by
    rw [hwires]
    simp only [List.mem_cons, List.not_mem_nil, or_false, forall_eq_or_imp, forall_eq]
    exact ⟨⟨4000, rfl, 5900, rfl, by decide⟩, ⟨5100, rfl, 5900, rfl, by decide⟩,
      5900, rfl, 5900, rfl, by decide⟩
  have hmem : reactionAt "❤" 5900 ∈ ds.flatMap (·.reactionsOf ("1", "a", "2")) := by
    rw [hwires]
    exact List.mem_cons_of_mem _ (List.mem_cons_of_mem _ List.mem_cons_self)
  exact absurd (h _ hmem hnewest) (by decide)

end Deliveries

end OmarchyWhatsapp

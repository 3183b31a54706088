import OmarchyWhatsapp.Database.Operations

/-!
# Frame lemmas

The tables that an operation leaves as they are, one lemma an operation. The lemmas are
`simp` rules, so that a later proof looks only at the operations that write to the table
it is about.
-/

namespace OmarchyWhatsapp

open Relational

variable (plan : QueryPlan) (s : Store)

/-! ## Names -/

@[simp] theorem updateContactNameInto_frame (jid name : String) (source : ℕ) :
    (updateContactNameInto s jid name source).1.chatSettings = s.chatSettings ∧
    (updateContactNameInto s jid name source).1.messageTombstones = s.messageTombstones ∧
    (updateContactNameInto s jid name source).1.pendingReadMessages = s.pendingReadMessages ∧
    (updateContactNameInto s jid name source).1.pollVotes = s.pollVotes := by
  unfold updateContactNameInto
  split_ifs <;> exact ⟨rfl, rfl, rfl, rfl⟩

@[simp] theorem updateGroupName_frame (jid name : String) :
    (updateGroupName s jid name).1.messages = s.messages ∧
    (updateGroupName s jid name).1.contacts = s.contacts ∧
    (updateGroupName s jid name).1.chatSettings = s.chatSettings ∧
    (updateGroupName s jid name).1.messageTombstones = s.messageTombstones ∧
    (updateGroupName s jid name).1.pendingReadMessages = s.pendingReadMessages := by
  unfold updateGroupName
  split_ifs <;> exact ⟨rfl, rfl, rfl, rfl, rfl⟩

@[simp] theorem updateChatPhoneNumber_frame (jid phoneNumber : String) :
    (updateChatPhoneNumber s jid phoneNumber).1.messages = s.messages ∧
    (updateChatPhoneNumber s jid phoneNumber).1.contacts = s.contacts ∧
    (updateChatPhoneNumber s jid phoneNumber).1.chatSettings = s.chatSettings ∧
    (updateChatPhoneNumber s jid phoneNumber).1.messageTombstones = s.messageTombstones ∧
    (updateChatPhoneNumber s jid phoneNumber).1.pendingReadMessages = s.pendingReadMessages :=
  ⟨rfl, rfl, rfl, rfl, rfl⟩

/-! ## Insertion -/

@[simp] theorem reviveChat_frame (insert : MessageInsert) :
    (reviveChat s insert).messages = s.messages ∧
    (reviveChat s insert).chats = s.chats ∧
    (reviveChat s insert).contacts = s.contacts ∧
    (reviveChat s insert).messageTombstones = s.messageTombstones ∧
    (reviveChat s insert).pendingReadMessages = s.pendingReadMessages := by
  unfold reviveChat
  split_ifs <;> exact ⟨rfl, rfl, rfl, rfl, rfl⟩

@[simp] theorem touchChat_frame (insert : MessageInsert) :
    (touchChat s insert).messages = s.messages ∧
    (touchChat s insert).contacts = s.contacts ∧
    (touchChat s insert).chatSettings = s.chatSettings ∧
    (touchChat s insert).messageTombstones = s.messageTombstones ∧
    (touchChat s insert).pendingReadMessages = s.pendingReadMessages :=
  ⟨rfl, rfl, rfl, rfl, rfl⟩

@[simp] theorem storeMessage_frame (insert : MessageInsert) :
    (storeMessage s insert).1.contacts = s.contacts ∧
    (storeMessage s insert).1.chatSettings = s.chatSettings ∧
    (storeMessage s insert).1.messageTombstones = s.messageTombstones ∧
    (storeMessage s insert).1.pendingReadMessages = s.pendingReadMessages :=
  ⟨rfl, rfl, rfl, rfl⟩

@[simp] theorem queueReadIntent_frame (insert : MessageInsert) :
    (queueReadIntent s insert).messages = s.messages ∧
    (queueReadIntent s insert).chats = s.chats ∧
    (queueReadIntent s insert).contacts = s.contacts ∧
    (queueReadIntent s insert).chatSettings = s.chatSettings ∧
    (queueReadIntent s insert).messageTombstones = s.messageTombstones := by
  unfold queueReadIntent
  split <;> exact ⟨rfl, rfl, rfl, rfl, rfl⟩

@[simp] theorem insertMessageInto_frame (insert : MessageInsert) :
    (insertMessageInto s insert).1.contacts = s.contacts ∧
    (insertMessageInto s insert).1.messageTombstones = s.messageTombstones := by
  unfold insertMessageInto
  split_ifs <;> simp

@[simp] theorem pruneChatHistory_frame (chatJid : String) :
    (pruneChatHistory plan s chatJid).messages = (keepNewest plan s chatJid).messages ∧
    (pruneChatHistory plan s chatJid).chats = s.chats ∧
    (pruneChatHistory plan s chatJid).contacts = s.contacts ∧
    (pruneChatHistory plan s chatJid).chatSettings = s.chatSettings ∧
    (pruneChatHistory plan s chatJid).messageTombstones = s.messageTombstones ∧
    (pruneChatHistory plan s chatJid).pendingReadMessages = s.pendingReadMessages :=
  ⟨rfl, rfl, rfl, rfl, rfl, rfl⟩

/-! ## Media and polls -/

@[simp] theorem updateMessageMediaInto_frame (chatJid messageId : String)
    (media : MessageMedia) :
    (updateMessageMediaInto plan s chatJid messageId media).1.contacts = s.contacts ∧
    (updateMessageMediaInto plan s chatJid messageId media).1.chatSettings = s.chatSettings ∧
    (updateMessageMediaInto plan s chatJid messageId media).1.messageTombstones
      = s.messageTombstones ∧
    (updateMessageMediaInto plan s chatJid messageId media).1.pendingReadMessages
      = s.pendingReadMessages :=
  ⟨rfl, rfl, rfl, rfl⟩

@[simp] theorem storePollSecret_frame (chatJid messageId creatorJid : String)
    (secret : List UInt8) :
    ((storePollSecret s chatJid messageId creatorJid secret).toOption.getD s).messages
      = s.messages ∧
    ((storePollSecret s chatJid messageId creatorJid secret).toOption.getD s).chats = s.chats ∧
    ((storePollSecret s chatJid messageId creatorJid secret).toOption.getD s).contacts
      = s.contacts ∧
    ((storePollSecret s chatJid messageId creatorJid secret).toOption.getD s).chatSettings
      = s.chatSettings ∧
    ((storePollSecret s chatJid messageId creatorJid secret).toOption.getD s).messageTombstones
      = s.messageTombstones := by
  unfold storePollSecret
  split_ifs <;> exact ⟨rfl, rfl, rfl, rfl, rfl⟩

@[simp] theorem applyPollVote_frame (chatJid messageId voterJid : String)
    (selected : List String) (fromMe : Bool) (timestamp : ℤ) :
    (s.apply plan (.applyPollVote chatJid messageId voterJid selected fromMe timestamp)).chats
      = s.chats ∧
    (s.apply plan (.applyPollVote chatJid messageId voterJid selected fromMe timestamp)).contacts
      = s.contacts ∧
    (s.apply plan (.applyPollVote chatJid messageId voterJid selected fromMe
      timestamp)).chatSettings = s.chatSettings ∧
    (s.apply plan (.applyPollVote chatJid messageId voterJid selected fromMe
      timestamp)).messageTombstones = s.messageTombstones := by
  dsimp only [Store.apply, applyPollVote]
  split
  · split_ifs <;> exact ⟨rfl, rfl, rfl, rfl⟩
  · exact ⟨rfl, rfl, rfl, rfl⟩

/-! ## Read state -/

@[simp] theorem applyReadBoundary_frame (chatJid : String) (timestamp : ℤ) (ids : List String) :
    (applyReadBoundary plan s chatJid timestamp ids).1.contacts = s.contacts ∧
    (applyReadBoundary plan s chatJid timestamp ids).1.messageTombstones
      = s.messageTombstones :=
  ⟨rfl, rfl⟩

@[simp] theorem applyReadState_frame (chatJid : String) (read : Bool) :
    (applyReadState plan s chatJid read).1.contacts = s.contacts ∧
    (applyReadState plan s chatJid read).1.messageTombstones = s.messageTombstones := by
  unfold applyReadState
  split_ifs <;> exact ⟨rfl, rfl⟩

@[simp] theorem applySyncedReadState_frame (chatJid : String) (read : Bool)
    (boundary : Option ℤ) (ids : List String) (eventTimestamp : ℤ) :
    (applySyncedReadState plan s chatJid read boundary ids eventTimestamp).1.contacts
      = s.contacts ∧
    (applySyncedReadState plan s chatJid read boundary ids eventTimestamp).1.messageTombstones
      = s.messageTombstones := by
  unfold applySyncedReadState
  split_ifs <;> simp [stampReadState]

@[simp] theorem applySelfReadReceipt_frame (chatJid : String) (ids : List String)
    (timestamp : ℤ) :
    (applySelfReadReceipt plan s chatJid ids timestamp).1.contacts = s.contacts ∧
    (applySelfReadReceipt plan s chatJid ids timestamp).1.messageTombstones
      = s.messageTombstones := by
  unfold applySelfReadReceipt
  split_ifs <;> simp

/-! ## Receipts and reactions -/

@[simp] theorem updateReceipt_frame (chatJid id : String) (receipt : ℕ)
    (reader : Option String) (receiptAt : ℤ) :
    (updateReceipt s chatJid id receipt reader receiptAt).1.chats = s.chats ∧
    (updateReceipt s chatJid id receipt reader receiptAt).1.contacts = s.contacts ∧
    (updateReceipt s chatJid id receipt reader receiptAt).1.chatSettings = s.chatSettings ∧
    (updateReceipt s chatJid id receipt reader receiptAt).1.messageTombstones
      = s.messageTombstones := by
  unfold updateReceipt
  dsimp only
  split
  · split_ifs <;> exact ⟨rfl, rfl, rfl, rfl⟩
  · exact ⟨rfl, rfl, rfl, rfl⟩

@[simp] theorem applyReaction_frame (chatJid messageId reactorJid emoji : String)
    (fromMe : Bool) (timestamp : ℤ) :
    (applyReaction s chatJid messageId reactorJid emoji fromMe timestamp).1.messages
      = s.messages ∧
    (applyReaction s chatJid messageId reactorJid emoji fromMe timestamp).1.chats = s.chats ∧
    (applyReaction s chatJid messageId reactorJid emoji fromMe timestamp).1.contacts
      = s.contacts ∧
    (applyReaction s chatJid messageId reactorJid emoji fromMe timestamp).1.chatSettings
      = s.chatSettings ∧
    (applyReaction s chatJid messageId reactorJid emoji fromMe timestamp).1.messageTombstones
      = s.messageTombstones := by
  unfold applyReaction
  dsimp only
  split_ifs <;> exact ⟨rfl, rfl, rfl, rfl, rfl⟩

/-! ## Deletion -/

@[simp] theorem refreshChatTail_frame (chatJid : String) :
    (refreshChatTail s chatJid).messages = s.messages ∧
    (refreshChatTail s chatJid).contacts = s.contacts ∧
    (refreshChatTail s chatJid).chatSettings = s.chatSettings ∧
    (refreshChatTail s chatJid).messageTombstones = s.messageTombstones :=
  ⟨rfl, rfl, rfl, rfl⟩

@[simp] theorem deleteMessagesThrough_frame (chatJid : String) (timestamp : ℤ) :
    (deleteMessagesThrough s chatJid timestamp).chats = s.chats ∧
    (deleteMessagesThrough s chatJid timestamp).contacts = s.contacts ∧
    (deleteMessagesThrough s chatJid timestamp).chatSettings = s.chatSettings ∧
    (deleteMessagesThrough s chatJid timestamp).messageTombstones = s.messageTombstones :=
  ⟨rfl, rfl, rfl, rfl⟩

end OmarchyWhatsapp

import OmarchyWhatsapp.Database.Events

/-!
# The chat list

`list_chats` joins every chat row with its settings and with the sender of its newest
message. The preview text and time are the columns of the chat row; only the sender's name
is looked up among the messages.
-/

namespace OmarchyWhatsapp

open Relational

variable (plan : QueryPlan)

/-- The setting columns the chat list reads, `COALESCE`d to their defaults. -/
def isArchived (s : Store) (jid : String) : Bool := (settingsOf s jid).archived.getD false

def isPinned (s : Store) (jid : String) : Bool := (settingsOf s jid).pinned.getD false

/-- Muted for good, or until a time still to come. -/
def isMuted (s : Store) (now : ℤ) (jid : String) : Bool :=
  (settingsOf s jid).muted.getD false &&
    (decide ((settingsOf s jid).muteEnd.getD 0 ≤ 0) ||
      decide (now < (settingsOf s jid).muteEnd.getD 0))

/-- The unread badge of a chat: an explicit mark counts as one. -/
def unreadBadge (s : Store) (c : ChatRow) : ℕ :=
  if isArchived s c.jid then 0 else max c.unread (settingsOf s c.jid).explicitUnread.toNat

/-- One line of the chat list. -/
def listedChat (s : Store) (now : ℤ) (c : ChatRow) : Chat :=
  { jid := c.jid, name := c.name, phoneNumber := c.phoneNumber, lastMessage := c.lastMessage,
    lastSenderName := (newestMessage s c.jid).elim "" (·.senderName),
    lastTimestamp := c.lastTimestamp, unread := unreadBadge s c,
    pinned := isPinned s c.jid, muted := isMuted s now c.jid, isGroup := c.isGroup }

/-- Archived chats last, pinned chats first, then the newest first. -/
def listedBefore (s : Store) (a b : ChatRow) : Bool :=
  let archived := (isArchived s a.jid).toNat
  let archived' := (isArchived s b.jid).toNat
  let pinned := (isPinned s a.jid).toNat
  let pinned' := (isPinned s b.jid).toNat
  decide (archived < archived') || (archived = archived' &&
    (decide (pinned' < pinned) || (pinned = pinned' &&
      decide (b.lastTimestamp ≤ a.lastTimestamp))))

/-- The server's own account is never listed. -/
def serverJid : String := "0@s.whatsapp.net"

/-- `list_chats`. -/
def listChats (s : Store) (now : ℤ) (limit : ℕ) : List Chat :=
  ((plan.orderBy (listedBefore s) (s.chats.rows.filter (fun c => c.jid ≠ serverJid))).take
    (max 1 (min limit 500))).map (listedChat s now)

/-- `unread_total`. -/
def unreadTotal (s : Store) : ℕ := (s.chats.rows.map (unreadBadge s)).sum

/-- A listed chat is a line for one of the stored chats. -/
theorem mem_listChats {s : Store} {now : ℤ} {limit : ℕ} {chat : Chat}
    (h : chat ∈ listChats plan s now limit) :
    ∃ c ∈ s.chats.rows, listedChat s now c = chat := by
  obtain ⟨c, hc, rfl⟩ := List.mem_map.mp h
  have hc := plan.mem_orderBy.mp (List.mem_of_mem_take hc)
  exact ⟨c, List.mem_of_mem_filter hc, rfl⟩

end OmarchyWhatsapp

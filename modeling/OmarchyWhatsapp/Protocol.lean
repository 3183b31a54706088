import Mathlib.Algebra.Order.Ring.Int
import Mathlib.Data.List.Basic

/-!
# Wire types

The part of `crates/protocol` that reaches the message store. Timestamps are signed
seconds (`i64`), counters are natural numbers. The fields of `Message` that only the read
path fills in (`delivered_to`, `read_by`, `reactions`) are left out.
-/

namespace OmarchyWhatsapp

structure PollOption where
  name : String
  votes : ℕ := 0
  selectedByMe : Bool := false
  voterJids : List String := []
deriving DecidableEq, Repr

inductive MessageMedia where
  | image (path thumbnailPath : String) (downloaded : Bool) (mimeType : String)
      (width height : ℕ)
  | sticker (path thumbnailPath : String) (downloaded : Bool) (mimeType : String)
      (width height : ℕ) (animated lottie : Bool) (accessibilityLabel : String)
  | video (path thumbnailPath : String) (downloaded : Bool) (mimeType : String)
      (width height durationSeconds : ℕ) (gifPlayback : Bool)
  | audio (path : String) (downloaded : Bool) (mimeType : String) (durationSeconds : ℕ)
      (voiceMessage : Bool)
  | document (path fileName mimeType : String) (fileSize pageCount : ℕ)
  | location (latitudeE7 longitudeE7 : ℤ) (accuracyM : ℕ) (name address : String)
      (thumbnailPath : Option String) (live : Bool) (updatedAt : ℤ) (durationSeconds : ℕ)
  | poll (question : String) (options : List PollOption) (selectableCount totalVoters : ℕ)
      (quiz : Bool) (correctOptionIndex : Option ℕ) (endTimestamp : ℤ)
deriving DecidableEq, Repr

structure MessageQuote where
  messageId : String
  senderJid : String
  senderName : String
  text : String
deriving DecidableEq, Repr

structure Message where
  id : String
  chatJid : String
  senderJid : String
  senderName : String
  text : String
  timestamp : ℤ
  fromMe : Bool
  /-- Outgoing receipt state: 0 unknown, 1 sent, 2 delivered, 3 read, 4 played. -/
  receipt : ℕ := 0
  deliveredAt : Option ℤ := none
  readAt : Option ℤ := none
  media : Option MessageMedia := none
  quote : Option MessageQuote := none
deriving DecidableEq, Repr

structure Chat where
  jid : String
  name : String
  phoneNumber : Option String := none
  lastMessage : String
  lastSenderName : String
  lastTimestamp : ℤ
  unread : ℕ
  pinned : Bool := false
  muted : Bool := false
  isGroup : Bool
deriving DecidableEq, Repr

/-! ## Strings -/

/-- The `White_Space` characters, which Rust's `str::trim` removes. -/
def isWhitespace (c : Char) : Bool :=
  (0x09 ≤ c.toNat && c.toNat ≤ 0x0D) || c.toNat = 0x20 || c.toNat = 0x85 || c.toNat = 0xA0 ||
    c.toNat = 0x1680 || (0x2000 ≤ c.toNat && c.toNat ≤ 0x200A) || c.toNat = 0x2028 ||
    c.toNat = 0x2029 || c.toNat = 0x202F || c.toNat = 0x205F || c.toNat = 0x3000

/-- `str::trim`. -/
def trim (value : String) : String :=
  String.ofList (((value.toList.dropWhile isWhitespace).reverse.dropWhile isWhitespace).reverse)

/-- `util::nonempty`. -/
def nonempty (value : String) : Option String :=
  if trim value = "" then none else some (trim value)

/-- `i64::saturating_sub(1)`. -/
def saturatingPred (value : ℤ) : ℤ := max (value - 1) (-2 ^ 63)

end OmarchyWhatsapp

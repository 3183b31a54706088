import Mathlib.Data.List.TakeWhile
import OmarchyWhatsapp.Protocol

/-!
# Mentions of a message

`text_outbox::validate_mentions` accepts the mentions of a text that is sent to a group, if the
number of each stands alone in the text. The classes of Unicode that the library of Rust knows are a
parameter, apart from white space.
-/

namespace OmarchyWhatsapp

/-- `str::split_once` at the first `@`. -/
def splitAtSign (jid : String) : Option (String × String) :=
  let user := jid.toList.takeWhile (· ≠ '@')
  match jid.toList.dropWhile (· ≠ '@') with
  | [] => none
  | _ :: server => some (String.ofList user, String.ofList server)

/-- `str::match_indices`, each match with the characters beside it; `skip` characters belong to the
match before. -/
def matchIndices (token : List Char) : ℕ → Option Char → List Char →
    List (Option Char × Option Char)
  | _, _, [] => []
  | skip + 1, _, c :: rest => matchIndices token skip (some c) rest
  | 0, before, c :: rest =>
    if token.isPrefixOf (c :: rest) then
      (before, ((c :: rest).drop token.length).head?) ::
        matchIndices token (token.length - 1) (some c) rest
    else matchIndices token 0 (some c) rest

/-- What may stand before the token of a mention. -/
def standsBefore (c : Char) : Bool := isWhitespace c || "([\x7b".toList.elem c

/-- What may stand behind the token of a mention. -/
def standsBehind (isAlphanumeric : Char → Bool) (c : Char) : Bool := !isAlphanumeric c && c ≠ '_'

def standsAlone (isAlphanumeric : Char → Bool) (before after : Option Char) : Bool :=
  before.all standsBefore && after.all (standsBehind isAlphanumeric)

/-- The body of the loop of `text_outbox::validate_mentions`. -/
def validateMention (isAlphanumeric : Char → Bool) (text jid : String) : Except String Unit :=
  let (user, server) := (splitAtSign jid).getD ("", "")
  if user ≠ "" ∧ user.toList.all Char.isDigit ∧ (server = "s.whatsapp.net" ∨ server = "lid") then
    if (matchIndices ('@' :: user.toList) 0 none text.toList).any
        (fun found => standsAlone isAlphanumeric found.1 found.2)
    then .ok () else .error "mention is absent from message text"
  else .error "invalid mention JID"

/-- `text_outbox::validate_mentions`, for a chat that is a group or not. -/
def validateMentions (isAlphanumeric : Char → Bool) (isGroup : Bool) (text : String)
    (mentions : List String) : Except String (List String) := do
  if 1024 < mentions.length then .error "too many mentions"
  else if ¬(mentions = [] ∨ isGroup) then .error "mentions require a group chat"
  else
    forM mentions (validateMention isAlphanumeric text)
    .ok (mentions.mergeSort (fun a b => decide (a ≤ b))).eraseReps

/-! ## What is accepted -/

section Accepted

variable {isAlphanumeric : Char → Bool} {text : String}

/-- Only repetitions are removed. -/
theorem mem_eraseRepsBy_loop {α : Type} [BEq α] [LawfulBEq α] (x : α) (l : List α) :
    ∀ a acc, x ∈ List.eraseRepsBy.loop (· == ·) a l acc ↔ x ∈ acc ∨ x = a ∨ x ∈ l := by
  induction l with
  | nil =>
    intro a acc
    simp [List.eraseRepsBy.loop, or_comm]
  | cons b rest ih =>
    intro a acc
    unfold List.eraseRepsBy.loop
    cases hab : a == b with
    | true =>
      obtain rfl := eq_of_beq hab
      rw [ih, List.mem_cons, ← or_assoc (a := x = a), or_self]
    | false =>
      rw [ih, List.mem_cons, List.mem_cons, or_assoc, or_left_comm]

theorem mem_eraseReps {α : Type} [BEq α] [LawfulBEq α] (x : α) (l : List α) :
    x ∈ l.eraseReps ↔ x ∈ l := by
  cases l with
  | nil => rfl
  | cons a rest =>
    show x ∈ List.eraseRepsBy.loop (· == ·) a rest [] ↔ _
    rw [mem_eraseRepsBy_loop, List.mem_cons]
    simp

theorem forM_ok {f : String → Except String Unit} {l : List String} :
    forM l f = .ok () ↔ ∀ a ∈ l, f a = .ok () := by
  induction l with
  | nil => simp [pure, Except.pure]
  | cons a rest ih =>
    rw [List.forM_cons, List.forall_mem_cons, ← ih]
    cases f a with
    | error e => simp [bind, Except.bind]
    | ok u => simp [bind, Except.bind]

/-- Mentions of a group chat are accepted as a whole, if each of them is. -/
theorem validateMentions_ok {mentions : List String} (hlength : mentions.length ≤ 1024) :
    (∃ accepted, validateMentions isAlphanumeric true text mentions = .ok accepted ∧
      ∀ jid, jid ∈ accepted ↔ jid ∈ mentions) ↔
      ∀ jid ∈ mentions, validateMention isAlphanumeric text jid = .ok () := by
  unfold validateMentions
  rw [if_neg (Nat.not_lt.mpr hlength), if_neg (by simp), ← forM_ok]
  cases hall : forM mentions (validateMention isAlphanumeric text) with
  | error e => simp [bind, Except.bind]
  | ok u =>
    refine iff_of_true ⟨_, rfl, fun jid => ?_⟩ rfl
    rw [mem_eraseReps, List.mem_mergeSort]

/-- The token of a number stands alone in a text. -/
def Occurs (isAlphanumeric : Char → Bool) (user text : List Char) : Prop :=
  ∃ front back, text = front ++ '@' :: (user ++ back) ∧
    standsAlone isAlphanumeric front.getLast? back.head? = true

theorem getLast?_cons_or {α : Type} (a : α) (l : List α) (b : Option α) :
    (a :: l).getLast?.or b = l.getLast?.or (some a) := by
  cases l with
  | nil => rfl
  | cons a' l =>
    rw [List.getLast?_cons_cons, List.getLast?_eq_some_getLast (List.cons_ne_nil _ _)]
    rfl

/-- A token with one `@` has no two matches in one another. -/
theorem mem_matchIndices {user : List Char} (huser : '@' ∉ user) (text : List Char) :
    ∀ skip before found, '@' ∉ text.take skip →
      (found ∈ matchIndices ('@' :: user) skip before text ↔
        ∃ front back, text = front ++ '@' :: (user ++ back) ∧
          found = (front.getLast?.or before, back.head?)) := by
  induction text with
  | nil =>
    intro skip before found _
    refine iff_of_false ?_ ?_
    · cases skip <;> exact List.not_mem_nil
    · rintro ⟨front, back, h, -⟩
      exact absurd h.symm (List.append_ne_nil_of_right_ne_nil _ (List.cons_ne_nil _ _))
  | cons c rest ih =>
    intro skip before found hskip
    -- a match is at the first character or behind it
    have hcases : (∃ front back, c :: rest = front ++ '@' :: (user ++ back) ∧
          found = (front.getLast?.or before, back.head?)) ↔
        (∃ back, c :: rest = '@' :: user ++ back ∧ found = (before, back.head?)) ∨
          ∃ front back, rest = front ++ '@' :: (user ++ back) ∧
            found = (front.getLast?.or (some c), back.head?) := by
      constructor
      · rintro ⟨front, back, hsplit, hfound⟩
        cases front with
        | nil => exact Or.inl ⟨back, hsplit, hfound⟩
        | cons d front =>
          obtain ⟨rfl, hrest⟩ := List.cons.inj hsplit
          rw [getLast?_cons_or] at hfound
          exact Or.inr ⟨front, back, hrest, hfound⟩
      · rintro (⟨back, hsplit, hfound⟩ | ⟨front, back, hsplit, hfound⟩)
        · exact ⟨[], back, hsplit, hfound⟩
        · refine ⟨c :: front, back, congrArg (c :: ·) hsplit, ?_⟩
          rw [getLast?_cons_or]
          exact hfound
    rw [hcases]
    cases skip with
    | succ skip =>
      rw [List.take_succ_cons, List.mem_cons, not_or] at hskip
      unfold matchIndices
      rw [ih skip (some c) found hskip.2, or_iff_right]
      rintro ⟨back, hsplit, -⟩
      exact hskip.1 (List.cons.inj hsplit).1.symm
    | zero =>
      unfold matchIndices
      split
      · rename_i hstart
        obtain ⟨back, hback⟩ := List.isPrefixOf_iff_prefix.mp hstart
        have htake : '@' ∉ rest.take user.length := by
          have hrest : user ++ back = rest := (List.cons.inj hback).2
          rw [← hrest, List.take_left]
          exact huser
        rw [List.mem_cons, ← hback, List.drop_left]
        show _ ∨ found ∈ matchIndices ('@' :: user) user.length (some c) rest ↔ _
        rw [ih user.length (some c) found htake]
        refine or_congr_left ⟨fun hfound => ⟨back, rfl, hfound⟩, ?_⟩
        rintro ⟨back', hsplit, hfound⟩
        rw [List.append_cancel_left hsplit]
        exact hfound
      · rename_i hstart
        rw [ih 0 (some c) found List.not_mem_nil, or_iff_right]
        rintro ⟨back, hsplit, -⟩
        exact hstart (List.isPrefixOf_iff_prefix.mpr ⟨back, hsplit.symm⟩)

theorem any_matchIndices_iff {user : List Char} (huser : '@' ∉ user) (text : List Char) :
    (matchIndices ('@' :: user) 0 none text).any
        (fun found => standsAlone isAlphanumeric found.1 found.2) = true ↔
      Occurs isAlphanumeric user text := by
  rw [List.any_eq_true]
  constructor
  · rintro ⟨found, hmem, hstands⟩
    obtain ⟨front, back, hsplit, rfl⟩ :=
      (mem_matchIndices huser text 0 none found List.not_mem_nil).mp hmem
    rw [Option.or_none] at hstands
    exact ⟨front, back, hsplit, hstands⟩
  · rintro ⟨front, back, hsplit, hstands⟩
    refine ⟨(front.getLast?.or none, back.head?),
      (mem_matchIndices huser text 0 none _ List.not_mem_nil).mpr ⟨front, back, hsplit, rfl⟩, ?_⟩
    rw [Option.or_none]
    exact hstands

/-- A mention of a member is accepted when the token of its number stands alone. -/
theorem validateMention_ok_iff {user : List Char} (hne : user ≠ [])
    (hdigits : ∀ c ∈ user, c.isDigit = true) {server : String}
    (hserver : server = "s.whatsapp.net" ∨ server = "lid") :
    validateMention isAlphanumeric text (String.ofList (user ++ '@' :: server.toList)) = .ok () ↔
      Occurs isAlphanumeric user text.toList := by
  have hat : ∀ c ∈ user, decide (c ≠ '@') = true := by
    intro c hc
    refine decide_eq_true fun h => ?_
    rw [h] at hc
    exact absurd (hdigits _ hc) (by decide)
  have hsplit : splitAtSign (String.ofList (user ++ '@' :: server.toList))
      = some (String.ofList user, server) := by
    unfold splitAtSign
    rw [String.toList_ofList, List.takeWhile_append_of_pos hat, List.dropWhile_append_of_pos hat]
    simp
  have huser : '@' ∉ user := fun h => absurd (hat _ h) (by decide)
  unfold validateMention
  rw [hsplit]
  dsimp only [Option.getD_some]
  rw [String.toList_ofList, if_pos, ← any_matchIndices_iff huser]
  · split
    · rename_i hany
      exact iff_of_true rfl hany
    · rename_i hany
      exact iff_of_false nofun hany
  · refine ⟨fun h => hne ?_, List.all_eq_true.mpr hdigits, hserver⟩
    have hlist := congrArg String.toList h
    rwa [String.toList_ofList] at hlist

/-! ## White space around a text -/

theorem all_or {α : Type} {p : α → Bool} {a b : Option α} (hb : b.all p = true) :
    (a.or b).all p = true ↔ a.all p = true := by
  cases a with
  | none => exact iff_of_true hb rfl
  | some x => rfl

variable {user space t : List Char} (hspace : ∀ c ∈ space, isWhitespace c = true)

include hspace

theorem occurs_append_left :
    Occurs isAlphanumeric user (space ++ t) ↔ Occurs isAlphanumeric user t := by
  have hbefore : space.getLast?.all standsBefore = true := by
    refine Option.all_eq_true _ _ |>.mpr fun c hc => ?_
    rw [standsBefore, hspace c (List.mem_of_getLast? hc)]
    rfl
  have hstands (front : List Char) (after : Option Char) :
      standsAlone isAlphanumeric (space ++ front).getLast? after
        = standsAlone isAlphanumeric front.getLast? after := by
    unfold standsAlone
    rw [List.getLast?_append, Bool.eq_iff_iff.mpr (all_or hbefore)]
  have hat : '@' ∉ space := fun h => absurd (hspace _ h) (by decide)
  constructor
  · rintro ⟨front, back, hsplit, hfound⟩
    rcases List.append_eq_append_iff.mp hsplit with ⟨front', rfl, ht⟩ | ⟨rest, rfl, hrest⟩
    · rw [hstands] at hfound
      exact ⟨front', back, ht, hfound⟩
    · cases rest with
      | nil =>
        rw [List.append_nil] at hstands
        rw [← List.append_nil front, hstands] at hfound
        exact ⟨[], back, hrest.symm, hfound⟩
      | cons c rest =>
        obtain rfl := (List.cons.inj hrest).1
        exact absurd (List.mem_append_right front List.mem_cons_self) hat
  · rintro ⟨front, back, rfl, hfound⟩
    refine ⟨space ++ front, back, (List.append_assoc _ _ _).symm, ?_⟩
    rw [hstands]
    exact hfound

theorem occurs_append_right (hclass : ∀ c, isWhitespace c = true → isAlphanumeric c = false)
    (huser : ∀ c ∈ user, isWhitespace c = false) :
    Occurs isAlphanumeric user (t ++ space) ↔ Occurs isAlphanumeric user t := by
  have hbehind : space.head?.all (standsBehind isAlphanumeric) = true := by
    refine Option.all_eq_true _ _ |>.mpr fun c hc => ?_
    have hwhite := hspace c (List.mem_of_head? hc)
    have hunderscore : c ≠ '_' := by
      rintro rfl
      exact absurd hwhite (by decide)
    rw [standsBehind, hclass c hwhite]
    simpa using hunderscore
  have hstands (before : Option Char) (back : List Char) :
      standsAlone isAlphanumeric before (back ++ space).head?
        = standsAlone isAlphanumeric before back.head? := by
    unfold standsAlone
    rw [List.head?_append, Bool.eq_iff_iff.mpr (all_or hbehind)]
  constructor
  · rintro ⟨front, back, hsplit, hfound⟩
    rw [← List.cons_append, ← List.append_assoc] at hsplit
    rcases List.append_eq_append_iff.mp hsplit with ⟨rest, htoken, hrest⟩ | ⟨back', rfl, rfl⟩
    · rcases List.eq_nil_or_concat rest with rfl | ⟨init, last, rfl⟩
      · rw [List.append_nil] at htoken
        rw [List.nil_append] at hrest
        subst hrest
        refine ⟨front, [], ?_, ?_⟩
        · rw [← htoken, List.append_nil]
        · exact (hstands front.getLast? []).symm.trans hfound
      · -- the last character of the token would be white space
        have hlast : last ∈ space := by
          rw [hrest]
          simp
        have htokenLast : last ∈ '@' :: user := by
          have hget := congrArg List.getLast? htoken
          rw [List.getLast?_append, List.concat_eq_append, ← List.append_assoc,
            List.getLast?_concat, List.getLast?_eq_some_getLast (List.cons_ne_nil _ _)] at hget
          rw [← Option.some.inj hget]
          exact List.getLast_mem _
        rcases List.mem_cons.mp htokenLast with rfl | hmem
        · exact absurd (hspace _ hlast) (by decide)
        · exact absurd ((huser _ hmem).symm.trans (hspace _ hlast)) Bool.false_ne_true
    · rw [hstands] at hfound
      refine ⟨front, back', ?_, hfound⟩
      rw [List.append_assoc, List.cons_append]
  · rintro ⟨front, back, rfl, hfound⟩
    refine ⟨front, back ++ space, ?_, ?_⟩
    · rw [List.append_assoc, List.cons_append, List.append_assoc]
    · rw [hstands]
      exact hfound

end Accepted

/-- The text is trimmed before its mentions are looked for, which changes nothing for them. -/
theorem occurs_trim {isAlphanumeric : Char → Bool}
    (hclass : ∀ c, isWhitespace c = true → isAlphanumeric c = false) {user : List Char}
    (huser : ∀ c ∈ user, isWhitespace c = false) (text : String) :
    Occurs isAlphanumeric user (trim text).toList ↔ Occurs isAlphanumeric user text.toList := by
  have hwhite (l : List Char) : ∀ c ∈ l.takeWhile isWhitespace, isWhitespace c = true :=
    fun c hc => List.mem_takeWhile_imp hc
  have hfront : Occurs isAlphanumeric user (text.toList.takeWhile isWhitespace ++
        text.toList.dropWhile isWhitespace) ↔
      Occurs isAlphanumeric user (text.toList.dropWhile isWhitespace) :=
    occurs_append_left (hwhite text.toList)
  rw [List.takeWhile_append_dropWhile] at hfront
  rw [hfront, trim, String.toList_ofList]
  generalize text.toList.dropWhile isWhitespace = l
  have hback : l = (l.reverse.dropWhile isWhitespace).reverse
      ++ (l.reverse.takeWhile isWhitespace).reverse := by
    rw [← List.reverse_append, List.takeWhile_append_dropWhile, List.reverse_reverse]
  conv_rhs => rw [hback]
  refine (occurs_append_right ?_ hclass huser).symm
  intro c hc
  exact hwhite l.reverse c (List.mem_reverse.mp hc)

end OmarchyWhatsapp

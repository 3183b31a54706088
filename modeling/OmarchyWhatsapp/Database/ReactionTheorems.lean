import OmarchyWhatsapp.Database.Operations
import OmarchyWhatsapp.Relational.LastWriter

/-!
# Reactions

The reaction of a person to a message lives in two tables: the visible reaction, and a
tombstone for its removal. Together the two rows of a key are a `Relational.Register`, and
`apply_reaction` is the arrival of one event at it.
-/

namespace OmarchyWhatsapp

open Relational

/-- A reaction event has the columns of the row it proposes; the empty emoji removes. -/
def ReactionRow.removes (e : ReactionRow) : Bool := e.emoji = ""

/-- `apply_reaction` for an event. -/
def receiveReaction (s : Store) (e : ReactionRow) : Store :=
  (applyReaction s e.chatJid e.messageId e.reactorJid e.emoji e.fromMe e.timestamp).1

/-- The two rows of a key. -/
def Store.reaction (s : Store) (k : String × String × String) : Register ReactionRow ℤ :=
  { shown := s.reactions.find? k
    removedAt := (s.reactionTombstones.find? k).map ReactionTombstoneRow.timestamp }

/-- One event at the register of its key. -/
abbrev arrive (r : Register ReactionRow ℤ) (e : ReactionRow) : Register ReactionRow ℤ :=
  r.apply ReactionRow.timestamp ReactionRow.removes e

section Registers

variable {s : Store} {e : ReactionRow} {k : String × String × String}

theorem find?_deleteWhere_older {ρ : Type} {key : ρ → String × String × String}
    (t : Table ρ key) (k k' : String × String × String) (older : ρ → Bool) :
    (t.deleteWhere (fun r => key r = k && older r)).find? k'
      = if k' = k then (t.find? k').filter (fun r => !older r) else t.find? k' := by
  rw [Table.find?_deleteWhere]
  rcases hfind : t.find? k' with _ | r
  · simp
  · have hk : key r = k' := Table.key_of_find? hfind
    rw [← hk]
    by_cases h : key r = k <;> simp [h, Option.filter]

/-- A removal at the register of its key. -/
theorem reaction_receiveReaction_removal (he : e.removes = true) :
    (receiveReaction s e).reaction k = if k = e.key then arrive (s.reaction k) e
      else s.reaction k := by
  have hemoji : e.emoji = "" := of_decide_eq_true he
  have hreactions : (receiveReaction s e).reactions = s.reactions.deleteWhere
      (fun r => r.key = e.key && r.timestamp ≤ e.timestamp) := by
    rw [receiveReaction, applyReaction, if_pos hemoji]
    rfl
  have htombstones : (receiveReaction s e).reactionTombstones.find? k = if k = e.key then
      some ((s.reactionTombstones.find? k).elim
        ⟨e.chatJid, e.messageId, e.reactorJid, e.timestamp⟩
        (fun old => { old with timestamp := max old.timestamp e.timestamp }))
      else s.reactionTombstones.find? k := by
    rw [receiveReaction, applyReaction, if_pos hemoji]
    exact Table.find?_upsert s.reactionTombstones
      ⟨e.chatJid, e.messageId, e.reactorJid, e.timestamp⟩
      (fun old new => { old with timestamp := max old.timestamp new.timestamp })
      (fun _ _ => rfl) k
  rw [Store.reaction, hreactions, htombstones, find?_deleteWhere_older]
  by_cases hk : k = e.key
  · rw [if_pos hk, if_pos hk, if_pos hk, arrive, Register.apply, if_pos he]
    congr 1
    · refine congrArg (fun p => Option.filter p _) (funext fun r => ?_)
      simp only [← not_le, decide_not]
    · cases h : s.reactionTombstones.find? k <;> simp [Store.reaction, h]
  · rw [if_neg hk, if_neg hk, if_neg hk]
    rfl

/-- A reaction at the register of its key. -/
theorem reaction_receiveReaction_emoji (he : e.removes = false) :
    (receiveReaction s e).reaction k = if k = e.key then arrive (s.reaction k) e
      else s.reaction k := by
  have hemoji : e.emoji ≠ "" := of_decide_eq_false he
  have hnot : ¬e.removes = true := by simp [he]
  have hany : (s.reaction e.key).removedAt.any (fun t => decide (e.timestamp ≤ t))
      = (s.reactionTombstones.find? e.key).any (fun t => decide (e.timestamp ≤ t.timestamp)) := by
    rw [Store.reaction, Option.any_map]
  by_cases hblocked : (s.reactionTombstones.find? e.key).any
      (fun t => decide (e.timestamp ≤ t.timestamp)) = true
  · have hsame : receiveReaction s e = s := by
      rw [receiveReaction, applyReaction, if_neg hemoji]
      exact congrArg Prod.fst (if_pos hblocked)
    rw [hsame]
    split
    · rename_i hk
      rw [hk, arrive, Register.apply, if_neg hnot, if_pos (hany.trans hblocked)]
    · rfl
  · have hreactions : (receiveReaction s e).reactions.find? k = if k = e.key then
        some ((s.reactions.find? k).elim e (fun old =>
          { old with
            emoji := if old.timestamp ≤ e.timestamp then e.emoji else old.emoji
            fromMe := if old.timestamp ≤ e.timestamp then e.fromMe else old.fromMe
            timestamp := max old.timestamp e.timestamp }))
        else s.reactions.find? k := by
      rw [receiveReaction, applyReaction, if_neg hemoji]
      refine (congrArg (fun p : Store × Bool => p.1.reactions.find? k)
        (if_neg hblocked)).trans ?_
      exact Table.find?_upsert s.reactions e
        (fun old new =>
          { old with
            emoji := if old.timestamp ≤ new.timestamp then new.emoji else old.emoji
            fromMe := if old.timestamp ≤ new.timestamp then new.fromMe else old.fromMe
            timestamp := max old.timestamp new.timestamp })
        (fun _ _ => rfl) k
    have htombstones : (receiveReaction s e).reactionTombstones = s.reactionTombstones.deleteWhere
        (fun t => t.key = e.key && t.timestamp < e.timestamp) := by
      rw [receiveReaction, applyReaction, if_neg hemoji]
      exact congrArg (fun p : Store × Bool => p.1.reactionTombstones) (if_neg hblocked)
    rw [Store.reaction, hreactions, htombstones, find?_deleteWhere_older]
    by_cases hk : k = e.key
    · rw [if_pos hk, if_pos hk, if_pos hk, arrive, Register.apply, if_neg hnot, hk,
        if_neg (by rw [hany]; exact hblocked)]
      congr 1
      · rw [Option.some_inj, Store.reaction]
        rcases hrow : s.reactions.find? e.key with _ | old
        · rfl
        · have hold : old.key = e.key := Table.key_of_find? hrow
          simp only [ReactionRow.key, Prod.mk.injEq] at hold
          obtain ⟨hc, hm, hr⟩ := hold
          rw [Option.elim_some, Option.elim_some]
          split
          · rename_i hle
            simp only [hle, max_eq_right, hc, hm, hr]
          · rename_i hlt
            simp only [max_eq_left (not_le.mp hlt).le]
      · cases h : s.reactionTombstones.find? e.key with
        | none => simp [Store.reaction, h]
        | some t =>
          simp only [Store.reaction, h, Option.map_some]
          by_cases hlt : t.timestamp < e.timestamp
          · simp [Option.filter, hlt]
          · simp [Option.filter, hlt, not_lt.mp hlt]
    · rw [if_neg hk, if_neg hk, if_neg hk]
      rfl

/-- `apply_reaction` is the arrival of the event at the register of its key. -/
theorem reaction_receiveReaction :
    (receiveReaction s e).reaction k = if k = e.key then arrive (s.reaction k) e
      else s.reaction k := by
  cases he : e.removes with
  | true => exact reaction_receiveReaction_removal he
  | false => exact reaction_receiveReaction_emoji he

/-- A run of events is, at every key, the run of the events of that key. -/
theorem reaction_foldl (s : Store) (es : List ReactionRow) (k : String × String × String) :
    (es.foldl receiveReaction s).reaction k
      = (es.filter (fun e => e.key = k)).foldl arrive (s.reaction k) := by
  induction es generalizing s with
  | nil => rfl
  | cons e es ih =>
    rw [List.foldl_cons, ih, reaction_receiveReaction]
    by_cases hk : k = e.key
    · rw [if_pos hk, List.filter_cons_of_pos (by simp [hk]), List.foldl_cons]
    · rw [if_neg hk, List.filter_cons_of_neg (by simpa using Ne.symm hk)]

end Registers

/-! ## Convergence -/

/-- The emoji that is shown, and since when. -/
def Store.visibleReaction (s : Store) (k : String × String × String) : Option (String × ℤ) :=
  (s.reactions.find? k).map (fun r => (r.emoji, r.timestamp))

/-- No two different emojis of the key share a time. -/
def Unambiguous (es : List ReactionRow) (k : String × String × String) : Prop :=
  ∀ e ∈ es, ∀ e' ∈ es, e.key = k → e'.key = k → e.emoji ≠ "" → e'.emoji ≠ "" →
    e.timestamp = e'.timestamp → e.emoji = e'.emoji

instance (es : List ReactionRow) (k : String × String × String) : Decidable (Unambiguous es k) :=
  inferInstanceAs (Decidable (∀ e ∈ es, ∀ e' ∈ es, _ → _))

/-- The newest events of the key take the reaction back. -/
def TakenBack (es : List ReactionRow) (e : ReactionRow) : Prop :=
  ∃ e' ∈ es, e'.key = e.key ∧ e'.emoji = "" ∧ e'.timestamp = e.timestamp

instance (es : List ReactionRow) (e : ReactionRow) : Decidable (TakenBack es e) :=
  inferInstanceAs (Decidable (∃ e' ∈ es, _))

section Convergence

variable {s : Store} {es : List ReactionRow} {k : String × String × String}

/-- What is shown after a run that starts without rows for the key. -/
theorem find?_reactions_foldl (hfresh : s.reaction k = {}) :
    (es.foldl receiveReaction s).reactions.find? k
      = latest ReactionRow.timestamp (Register.survivors ReactionRow.timestamp ReactionRow.removes
          {} (es.filter (fun e => e.key = k))) := by
  have hrun := congrArg Register.shown (reaction_foldl s es k)
  rw [hfresh, Register.shown_foldl] at hrun
  exact hrun

theorem mem_survivors_iff {e : ReactionRow} :
    e ∈ Register.survivors ReactionRow.timestamp ReactionRow.removes {}
        (es.filter (fun e => e.key = k)) ↔
      (e ∈ es ∧ e.key = k ∧ e.emoji ≠ "") ∧
        ∀ e' ∈ es, e'.key = k → e'.emoji = "" → e'.timestamp < e.timestamp := by
  rw [Register.mem_survivors]
  simp only [Register.Covered, List.mem_filter, ReactionRow.removes, decide_eq_true_eq,
    decide_eq_false_iff_not]
  simp only [Option.mem_def, reduceCtorEq, false_or, false_imp_iff, implies_true, and_true,
    not_exists, not_and, not_le, and_assoc]

/-- The newest event of the key decides, a removal before an emoji. -/
theorem visibleReaction_of_newest (hfresh : s.reaction k = {}) (hclash : Unambiguous es k)
    {e : ReactionRow} (he : e ∈ es) (hk : e.key = k)
    (hnewest : ∀ e' ∈ es, e'.key = k → e'.timestamp ≤ e.timestamp) :
    (es.foldl receiveReaction s).visibleReaction k
      = if TakenBack es e then none else some (e.emoji, e.timestamp) := by
  rw [Store.visibleReaction, find?_reactions_foldl hfresh]
  split
  · rename_i hback
    obtain ⟨e', he', hk', hemoji, htime⟩ := hback
    rw [Option.map_eq_none_iff, latest_eq_none, List.eq_nil_iff_forall_not_mem]
    intro x hx
    obtain ⟨⟨hmem, hxk, -⟩, huncovered⟩ := mem_survivors_iff.mp hx
    have hlt := huncovered e' he' (hk'.trans hk) hemoji
    exact absurd (hnewest x hmem hxk) (not_le.mpr (htime ▸ hlt))
  · rename_i hback
    have hemoji : e.emoji ≠ "" := fun h => hback ⟨e, he, rfl, h, rfl⟩
    have hsurvives : e ∈ Register.survivors ReactionRow.timestamp ReactionRow.removes {}
        (es.filter (fun e => e.key = k)) := by
      refine mem_survivors_iff.mpr ⟨⟨he, hk, hemoji⟩, fun e' he' hk' hremoves => ?_⟩
      refine lt_of_le_of_ne (hnewest e' he' hk') fun htime => ?_
      exact hback ⟨e', he', hk'.trans hk.symm, hremoves, htime⟩
    obtain ⟨x, hx⟩ := exists_latest ReactionRow.timestamp hsurvives
    obtain ⟨⟨hmem, hxk, hxemoji⟩, -⟩ := mem_survivors_iff.mp (latest_mem _ hx)
    have htime : x.timestamp = e.timestamp :=
      le_antisymm (hnewest x hmem hxk) (le_latest _ hx hsurvives)
    rw [hx, Option.map_some, htime, hclash x hmem e he hxk hk hxemoji hemoji htime]

/-- Without events for the key nothing is shown. -/
theorem visibleReaction_of_none (hfresh : s.reaction k = {}) (hnone : ∀ e ∈ es, e.key ≠ k) :
    (es.foldl receiveReaction s).visibleReaction k = none := by
  rw [Store.visibleReaction, find?_reactions_foldl hfresh, Option.map_eq_none_iff, latest_eq_none,
    List.eq_nil_iff_forall_not_mem]
  intro x hx
  obtain ⟨⟨hmem, hk, -⟩, -⟩ := mem_survivors_iff.mp hx
  exact hnone x hmem hk

/-- The reactions of a key converge: after any sequence of events the newest one decides, a
removal winning a tie, and the same events in another order or number show the same. The
row that is shown is one of the events, so it is the same row too where the events of the
key agree on `from_me`. -/
theorem reactions_converge (s : Store) (k : String × String × String)
    (hfresh : s.reaction k = {}) (es : List ReactionRow) (hclash : Unambiguous es k) :
    (∀ e ∈ es, e.key = k → (∀ e' ∈ es, e'.key = k → e'.timestamp ≤ e.timestamp) →
      (es.foldl receiveReaction s).visibleReaction k
        = if TakenBack es e then none else some (e.emoji, e.timestamp)) ∧
    ((∀ e ∈ es, e.key ≠ k) → (es.foldl receiveReaction s).visibleReaction k = none) ∧
    (∀ es' : List ReactionRow, (∀ e, e ∈ es' ↔ e ∈ es) → (es'.foldl receiveReaction s).visibleReaction k
      = (es.foldl receiveReaction s).visibleReaction k) ∧
    (∀ e ∈ (es.foldl receiveReaction s).reactions.find? k, e ∈ es) ∧
    ((∀ e ∈ es, ∀ e' ∈ es, e.key = k → e'.key = k → e.fromMe = e'.fromMe) →
      ∀ es' : List ReactionRow, (∀ e, e ∈ es' ↔ e ∈ es) → (es'.foldl receiveReaction s).reactions.find? k
        = (es.foldl receiveReaction s).reactions.find? k) := by
  have horder : ∀ es' : List ReactionRow, (∀ e, e ∈ es' ↔ e ∈ es) →
      (es'.foldl receiveReaction s).visibleReaction k
        = (es.foldl receiveReaction s).visibleReaction k := by
    intro es' hmem
    have hclash' : Unambiguous es' k := fun e he e' he' =>
      hclash e ((hmem e).mp he) e' ((hmem e').mp he')
    by_cases hany : ∃ e ∈ es, e.key = k
    · obtain ⟨e₀, he₀, hk₀⟩ := hany
      obtain ⟨e, he⟩ := exists_latest ReactionRow.timestamp
        (List.mem_filter.mpr ⟨he₀, decide_eq_true hk₀⟩ : e₀ ∈ es.filter (fun e => e.key = k))
      obtain ⟨hein, hek⟩ := List.mem_filter.mp (latest_mem _ he)
      have hek := of_decide_eq_true hek
      have hnewest : ∀ e' ∈ es, e'.key = k → e'.timestamp ≤ e.timestamp := fun e' he' hk' =>
        le_latest _ he (List.mem_filter.mpr ⟨he', decide_eq_true hk'⟩)
      have hback : TakenBack es' e ↔ TakenBack es e := by
        simp only [TakenBack, hmem]
      rw [visibleReaction_of_newest hfresh hclash hein hek hnewest,
        visibleReaction_of_newest hfresh hclash' ((hmem e).mpr hein) hek
          fun e' he' => hnewest e' ((hmem e').mp he')]
      simp only [hback]
    · push Not at hany
      rw [visibleReaction_of_none hfresh hany,
        visibleReaction_of_none hfresh fun e he => hany e ((hmem e).mp he)]
  have hshown : ∀ es' : List ReactionRow, ∀ e ∈ (es'.foldl receiveReaction s).reactions.find? k,
      e ∈ es' ∧ e.key = k := by
    intro es' e he
    rw [find?_reactions_foldl hfresh] at he
    obtain ⟨⟨hmem, hk, -⟩, -⟩ := mem_survivors_iff.mp (latest_mem _ he)
    exact ⟨hmem, hk⟩
  refine ⟨fun e he hk hnewest => visibleReaction_of_newest hfresh hclash he hk hnewest,
    visibleReaction_of_none hfresh, horder, fun e he => (hshown es e he).1,
    fun hown es' hmem => ?_⟩
  have hsame := horder es' hmem
  rw [Store.visibleReaction, Store.visibleReaction] at hsame
  rcases hrow : (es.foldl receiveReaction s).reactions.find? k with _ | e
  · rw [hrow, Option.map_none, Option.map_eq_none_iff] at hsame
    exact hsame
  · rw [hrow, Option.map_some, Option.map_eq_some_iff] at hsame
    obtain ⟨e', hrow', hpair⟩ := hsame
    rw [hrow', Option.some_inj]
    obtain ⟨he, hk⟩ := hshown es e hrow
    obtain ⟨he', hk'⟩ := hshown es' e' hrow'
    have hfrom := hown e' ((hmem e').mp he') e he hk' hk
    have hkeys : e'.key = e.key := hk'.trans hk.symm
    obtain ⟨c, m, r, emoji, f, ts⟩ := e
    obtain ⟨c', m', r', emoji', f', ts'⟩ := e'
    simp only [ReactionRow.key, Prod.mk.injEq] at hkeys hpair hfrom
    obtain ⟨rfl, rfl, rfl⟩ := hkeys
    obtain ⟨rfl, rfl⟩ := hpair
    rw [hfrom]

/-- A removal that arrives first takes back the reaction of its second, and a newer reaction
that arrives between the two stays. -/
theorem reactions_converge_late_removal :
    ([⟨"1", "a", "2", "", false, 5⟩, ⟨"1", "a", "2", "y", false, 6⟩,
      ⟨"1", "a", "2", "x", false, 5⟩].foldl receiveReaction Store.empty).visibleReaction
        ("1", "a", "2") = some ("y", 6) :=
  (reactions_converge Store.empty ("1", "a", "2") rfl
    [⟨"1", "a", "2", "", false, 5⟩, ⟨"1", "a", "2", "y", false, 6⟩,
      ⟨"1", "a", "2", "x", false, 5⟩] (by decide)).1 ⟨"1", "a", "2", "y", false, 6⟩
    (by decide) rfl (by decide)

end Convergence

end OmarchyWhatsapp

import Mathlib.Data.List.Basic

/-!
# Decoding a stream in pieces

General support for stream protocols. A decoder looks at the front of a buffer and asks for
more, takes an item off, or fails; what it has decided it does not revise when more arrives.
Running it over a whole stream and feeding it the stream piece by piece then give the same
items and the same end. Nothing here names a format.
-/

namespace MsgTrans.Base

variable {β α ε : Type}

/-- What a decoder says about the front of a buffer. -/
inductive Verdict (α ε : Type) where
  | more
  | item (x : α) (n : Nat)
  | fail (error : ε)
  deriving DecidableEq, Repr

/-- A decoder of items from the front of a buffer whose decisions are final. -/
structure Decoder (β α ε : Type) where
  next : List β → Verdict α ε
  item_pos : ∀ {b x n}, next b = .item x n → 0 < n
  item_le : ∀ {b x n}, next b = .item x n → n ≤ b.length
  item_take : ∀ {b x n}, next b = .item x n → next (b.take n) = .item x n
  item_append : ∀ {b x n} (c : List β), next b = .item x n → next (b ++ c) = .item x n
  fail_append : ∀ {b e} (c : List β), next b = .fail e → next (b ++ c) = .fail e

/-- How a stream ends: with bytes that are no whole item yet, or with an error at a position. -/
inductive Ending (β ε : Type) where
  | waiting (rest : List β)
  | failed (error : ε) (position : Nat)
  deriving DecidableEq, Repr

namespace Decoder

variable (d : Decoder β α ε)

/-- Decode a whole buffer that starts at a position of the stream. -/
def run (position : Nat) (b : List β) : List α × Ending β ε :=
  match _h : d.next b with
  | .more => ([], .waiting b)
  | .fail e => ([], .failed e position)
  | .item x n =>
    let rest := run (position + n) (b.drop n)
    (x :: rest.1, rest.2)
termination_by b.length
decreasing_by
  have hpos := d.item_pos _h
  have hle := d.item_le _h
  rw [List.length_drop]
  omega

/-- Decode a stream that arrives in pieces, with a buffer that starts at a position. -/
def feed (position : Nat) (b : List β) : List (List β) → List α × Ending β ε
  | [] => ([], .waiting b)
  | c :: cs =>
    match d.run position (b ++ c) with
    | (xs, .failed e p) => (xs, .failed e p)
    | (xs, .waiting rest) =>
      let tail := feed (position + ((b ++ c).length - rest.length)) rest cs
      (xs ++ tail.1, tail.2)

variable {d} {b : List β}

theorem run_more (position : Nat) (h : d.next b = .more) : d.run position b = ([], .waiting b) := by
  rw [run]
  split <;> simp_all

theorem run_fail (position : Nat) {e : ε} (h : d.next b = .fail e) :
    d.run position b = ([], .failed e position) := by
  rw [run]
  split <;> simp_all

theorem run_item (position : Nat) {x : α} {n : Nat} (h : d.next b = .item x n) :
    d.run position b =
      (x :: (d.run (position + n) (b.drop n)).1, (d.run (position + n) (b.drop n)).2) := by
  rw [run]
  split <;> simp_all

/-- The bytes a run stops at are the end of the buffer. -/
theorem run_waiting {position : Nat} {b rest : List β} {xs : List α}
    (h : d.run position b = (xs, .waiting rest)) : ∃ n, n ≤ b.length ∧ rest = b.drop n := by
  cases hn : d.next b with
  | more =>
    rw [run_more _ hn] at h
    cases h
    exact ⟨0, Nat.zero_le _, rfl⟩
  | fail e =>
    rw [run_fail _ hn] at h
    cases h
  | item x n =>
    have hpos := d.item_pos hn
    have hle := d.item_le hn
    rw [run_item _ hn] at h
    obtain ⟨-, h⟩ := Prod.mk.inj h
    obtain ⟨m, hm, rfl⟩ := run_waiting (Prod.ext rfl h)
    rw [List.length_drop] at hm
    exact ⟨n + m, by omega, by rw [List.drop_drop]⟩
termination_by b.length
decreasing_by
  rw [List.length_drop]
  omega

/-- A run that has stopped to wait would stop there again. -/
theorem next_of_waiting {position : Nat} {b rest : List β} {xs : List α}
    (h : d.run position b = (xs, .waiting rest)) : d.next rest = .more := by
  cases hn : d.next b with
  | more =>
    rw [run_more _ hn] at h
    cases h
    exact hn
  | fail e =>
    rw [run_fail _ hn] at h
    cases h
  | item x n =>
    have hpos := d.item_pos hn
    have hle := d.item_le hn
    rw [run_item _ hn] at h
    exact next_of_waiting (Prod.ext rfl (Prod.mk.inj h).2)
termination_by b.length
decreasing_by
  rw [List.length_drop]
  omega

/-- Whatever follows the bytes a run has stopped at is decoded from there. -/
theorem run_append_of_waiting {position : Nat} {b rest : List β} {xs : List α} (c : List β)
    (h : d.run position b = (xs, .waiting rest)) :
    d.run position (b ++ c) =
      (xs ++ (d.run (position + (b.length - rest.length)) (rest ++ c)).1,
        (d.run (position + (b.length - rest.length)) (rest ++ c)).2) := by
  cases hn : d.next b with
  | more =>
    rw [run_more _ hn] at h
    cases h
    simp
  | fail e =>
    rw [run_fail _ hn] at h
    cases h
  | item x n =>
    have hpos := d.item_pos hn
    have hle := d.item_le hn
    rw [run_item _ hn] at h
    obtain ⟨rfl, hend⟩ := Prod.mk.inj h
    have hrest := run_append_of_waiting c (Prod.ext rfl hend)
    obtain ⟨m, hm, rfl⟩ := run_waiting (Prod.ext rfl hend)
    rw [List.length_drop] at hm
    have hposition : position + n + ((b.drop n).length - ((b.drop n).drop m).length) =
        position + (b.length - ((b.drop n).drop m).length) := by
      simp only [List.length_drop]
      omega
    rw [hposition] at hrest
    rw [run_item _ (d.item_append c hn), List.drop_append_of_le_length hle, hrest]
    rfl
termination_by b.length
decreasing_by
  rw [List.length_drop]
  omega

/-- A run that has failed is not affected by what follows. -/
theorem run_append_of_failed {position p : Nat} {b : List β} {xs : List α} {e : ε} (c : List β)
    (h : d.run position b = (xs, .failed e p)) :
    d.run position (b ++ c) = (xs, .failed e p) := by
  cases hn : d.next b with
  | more =>
    rw [run_more _ hn] at h
    cases h
  | fail e' =>
    rw [run_fail _ hn] at h
    rw [run_fail _ (d.fail_append c hn), h]
  | item x n =>
    have hpos := d.item_pos hn
    have hle := d.item_le hn
    rw [run_item _ hn] at h
    obtain ⟨rfl, hend⟩ := Prod.mk.inj h
    have hrest := run_append_of_failed c (Prod.ext rfl hend)
    rw [run_item _ (d.item_append c hn), List.drop_append_of_le_length hle, hrest]
termination_by b.length
decreasing_by
  rw [List.length_drop]
  omega

/-- A run fails where the decoder does, behind whole items. -/
theorem run_failed (hnil : d.next [] = .more) {position p : Nat} {b : List β} {xs : List α} {e : ε}
    (h : d.run position b = (xs, .failed e p)) :
    ∃ n, n ≤ b.length ∧ p = position + n ∧ d.next (b.drop n) = .fail e ∧
      d.run position (b.take n) = (xs, .waiting []) := by
  cases hn : d.next b with
  | more =>
    rw [run_more _ hn] at h
    cases h
  | fail e' =>
    rw [run_fail _ hn] at h
    cases h
    exact ⟨0, Nat.zero_le _, rfl, hn, run_more _ hnil⟩
  | item x m =>
    have hpos := d.item_pos hn
    have hle := d.item_le hn
    rw [run_item _ hn] at h
    obtain ⟨rfl, hend⟩ := Prod.mk.inj h
    obtain ⟨n, hlen, rfl, hfail, hrun⟩ := run_failed hnil (Prod.ext rfl hend)
    rw [List.length_drop] at hlen
    refine ⟨m + n, by omega, by omega, by rwa [List.drop_drop] at hfail, ?_⟩
    have hfront : d.next (b.take (m + n)) = .item x m := by
      rw [List.take_add]
      exact d.item_append _ (d.item_take hn)
    rw [run_item _ hfront, List.drop_take, Nat.add_sub_cancel_left, hrun]
termination_by b.length
decreasing_by
  rw [List.length_drop]
  omega

/-- However a stream is cut, feeding the pieces gives what the whole stream gives. -/
theorem feed_eq_run {position : Nat} {b : List β} (cs : List (List β)) (hb : d.next b = .more) :
    d.feed position b cs = d.run position (b ++ cs.flatten) := by
  induction cs generalizing position b with
  | nil => rw [feed, List.flatten_nil, List.append_nil, run_more _ hb]
  | cons c cs ih =>
    rw [feed, List.flatten_cons, ← List.append_assoc]
    cases hrun : d.run position (b ++ c) with
    | mk xs ending =>
      cases ending with
      | failed e p => rw [run_append_of_failed cs.flatten hrun]
      | waiting rest =>
        rw [run_append_of_waiting cs.flatten hrun]
        simp only [ih (next_of_waiting hrun)]

/-- Items taken off one by one in front of a tail. -/
theorem run_items (position : Nat) {frames : List (α × List β)} (tail : List β)
    (h : ∀ f ∈ frames, ∀ c, d.next (f.2 ++ c) = .item f.1 f.2.length) :
    d.run position ((frames.map Prod.snd).flatten ++ tail) =
      (frames.map Prod.fst ++ (d.run (position + (frames.map Prod.snd).flatten.length) tail).1,
        (d.run (position + (frames.map Prod.snd).flatten.length) tail).2) := by
  induction frames generalizing position with
  | nil => simp
  | cons f frames ih =>
    have hf := h f (by simp) ((frames.map Prod.snd).flatten ++ tail)
    have hrest := @ih (position + f.2.length) fun g hg ↦ h g (by simp [hg])
    rw [List.map_cons, List.flatten_cons, List.append_assoc, run_item _ hf, List.drop_left, hrest,
      List.length_append, Nat.add_assoc]
    rfl

end Decoder

end MsgTrans.Base

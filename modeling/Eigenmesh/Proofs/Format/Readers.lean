import Mathlib.Data.List.Basic
import Eigenmesh.Format.Binary
import Eigenmesh.Proofs.Format.BigEndian

/-!
Readers that accept exactly what is written.

A reader decodes a way of writing if it succeeds on the written form of every good value, whatever
follows, and on nothing else. Readers made of such readers are described by what they are made of.
-/

namespace Eigenmesh.Binary

variable {β γ : Type} {s rest : List UInt8}

/-- The reader takes what is written of a good value off the front, and nothing else. -/
def Decodes (r : Reader β) (good : β → Prop) (written : β → List UInt8) : Prop :=
  ∀ s x rest, r s = .ok (x, rest) ↔ good x ∧ s = written x ++ rest

lemma bind_eq_ok {r : Reader β} {f : β → Reader γ} {y : γ} :
    (r >>= f) s = .ok (y, rest) ↔ ∃ x t, r s = .ok (x, t) ∧ f x t = .ok (y, rest) := by
  change (r s >>= fun p => f p.1 p.2) = _ ↔ _
  cases hr : r s with
  | error e => exact ⟨fun h => (nomatch h), fun ⟨_, _, h, _⟩ => (nomatch h)⟩
  | ok p =>
    refine ⟨fun h => ⟨p.1, p.2, rfl, h⟩, ?_⟩
    rintro ⟨x, t, h, next⟩
    obtain rfl := Except.ok.inj h
    exact next

lemma return_eq_ok {x y : β} :
    (return x : Reader β) s = .ok (y, rest) ↔ y = x ∧ s = rest := by
  change Except.ok (x, s) = _ ↔ _
  simp [eq_comm]

lemma Decodes.bind_eq_ok {r : Reader β} {good : β → Prop} {written : β → List UInt8}
    (decodes : Decodes r good written) {f : β → Reader γ} {y : γ} :
    (r >>= f) s = .ok (y, rest) ↔
      ∃ x t, good x ∧ s = written x ++ t ∧ f x t = .ok (y, rest) := by
  simp only [Binary.bind_eq_ok, decodes s, and_assoc]

/-! ### Bytes and numbers -/

lemma bytes_decodes (n : ℕ) : Decodes (bytes n) (·.length = n) id := by
  intro s x rest
  unfold bytes
  dsimp only
  constructor
  · intro h
    split at h
    · obtain ⟨rfl, rfl⟩ := Prod.mk.inj (Except.ok.inj h)
      exact ⟨‹_›, (List.take_append_drop n s).symm⟩
    · cases h
  · rintro ⟨rfl, rfl⟩
    simp

lemma value_decodes : Decodes value (fun _ => True) encodeValue := by
  intro s x rest
  unfold value encodeValue
  rw [(bytes_decodes 8).bind_eq_ok]
  simp only [return_eq_ok]
  constructor
  · rintro ⟨l, t, length, rfl, rfl, rfl⟩
    have small : BigEndian.decode l < 2 ^ 64 := by
      have := BigEndian.decode_lt l
      rwa [length] at this
    refine ⟨trivial, ?_⟩
    rw [UInt64.toNat_ofNat_of_lt' small, ← length, BigEndian.encode_decode]
    rfl
  · rintro ⟨-, rfl⟩
    refine ⟨BigEndian.encode 8 x.toNat, rest, BigEndian.length_encode _ _, rfl, ?_, rfl⟩
    rw [BigEndian.decode_encode x.toNat_lt, UInt64.ofNat_toNat]

lemma integer_bind_eq_ok {f : ℤ → Reader γ} {y : γ} :
    (integer >>= f) s = .ok (y, rest) ↔ ∃ l t, l.length = 4 ∧ s = l ++ t ∧
      f (BigEndian.signed (BigEndian.decode l)) t = .ok (y, rest) := by
  unfold integer
  rw [bind_assoc, (bytes_decodes 4).bind_eq_ok]
  rfl

lemma decode_lt_of_length {l : List UInt8} (length : l.length = 4) :
    BigEndian.decode l < 2 ^ 32 := by
  have := BigEndian.decode_lt l
  rwa [length] at this

lemma length_decodes (what : Quantity) :
    Decodes (length what) (· < 2 ^ 31) (BigEndian.encode 4) := by
  intro s n rest
  unfold length
  rw [integer_bind_eq_ok]
  constructor
  · rintro ⟨l, t, hl, rfl, h⟩
    by_cases small : BigEndian.decode l < 2 ^ 31
    · rw [BigEndian.signed_of_lt small, if_neg (by omega), return_eq_ok, Int.toNat_natCast] at h
      obtain ⟨rfl, rfl⟩ := h
      refine ⟨small, ?_⟩
      rw [← hl, BigEndian.encode_decode]
    · have negative := BigEndian.signed_neg_of_le (Nat.le_of_not_lt small) (decode_lt_of_length hl)
      rw [if_pos negative] at h
      cases h
  · rintro ⟨small, rfl⟩
    refine ⟨_, rest, BigEndian.length_encode 4 n, rfl, ?_⟩
    rw [BigEndian.decode_encode (by omega), BigEndian.signed_of_lt small, if_neg (by omega),
      return_eq_ok, Int.toNat_natCast]
    exact ⟨rfl, rfl⟩

lemma expectClass_decodes {expected : ℕ} (small : expected < 2 ^ 31) :
    Decodes (expectClass expected) (fun _ => True) fun _ => BigEndian.encode 4 expected := by
  intro s x rest
  unfold expectClass
  rw [integer_bind_eq_ok]
  constructor
  · rintro ⟨l, t, hl, rfl, h⟩
    split at h
    · rename_i same
      rw [return_eq_ok] at h
      have low : BigEndian.decode l < 2 ^ 31 := by
        by_contra large
        have := BigEndian.signed_neg_of_le (Nat.le_of_not_lt large) (decode_lt_of_length hl)
        omega
      rw [BigEndian.signed_of_lt low] at same
      refine ⟨trivial, ?_⟩
      rw [← Int.ofNat.inj same, ← hl, BigEndian.encode_decode, h.2]
    · cases h
  · rintro ⟨-, rfl⟩
    refine ⟨_, rest, BigEndian.length_encode 4 expected, rfl, ?_⟩
    rw [BigEndian.decode_encode (by omega), BigEndian.signed_of_lt small, if_pos rfl, return_eq_ok]
    exact ⟨rfl, rfl⟩

lemma times_decodes {r : Reader β} {good : β → Prop} {written : β → List UInt8}
    (decodes : Decodes r good written) (n : ℕ) :
    Decodes (times r n) (fun xs => xs.length = n ∧ ∀ x ∈ xs, good x) (·.flatMap written) := by
  induction n with
  | zero =>
    intro s xs rest
    unfold times
    rw [return_eq_ok]
    constructor
    · rintro ⟨rfl, rfl⟩
      simp
    · rintro ⟨⟨none, -⟩, rfl⟩
      obtain rfl := List.eq_nil_of_length_eq_zero none
      exact ⟨rfl, rfl⟩
  | succ n ih =>
    intro s xs rest
    unfold times
    rw [decodes.bind_eq_ok]
    simp only [ih.bind_eq_ok, return_eq_ok]
    constructor
    · rintro ⟨x, t, hx, rfl, ys, t', ⟨hlen, hys⟩, rfl, rfl, rfl⟩
      refine ⟨⟨by rw [List.length_cons, hlen], List.forall_mem_cons.2 ⟨hx, hys⟩⟩, ?_⟩
      rw [List.flatMap_cons, List.append_assoc]
    · rintro ⟨⟨hlen, hxs⟩, rfl⟩
      cases xs with
      | nil => cases hlen
      | cons x xs =>
        obtain ⟨hx, hxs⟩ := List.forall_mem_cons.1 hxs
        exact ⟨x, _, hx, by rw [List.flatMap_cons, List.append_assoc], xs, rest,
          ⟨Nat.succ.inj hlen, hxs⟩, rfl, rfl, rfl⟩

end Eigenmesh.Binary

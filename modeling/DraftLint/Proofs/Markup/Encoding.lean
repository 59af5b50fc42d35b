import DraftLint.Markup.Encoding
import DraftLint.Proofs.Text.Utf8

/-!
# Octets and characters

Octets of a document and the characters that they are read as go side by side.  A character of the ASCII range is read
from its own octet, and no other character is read from octets of that range.
-/

namespace DraftLint

namespace Markup.Encoding

open Utf8

variable {e : Encoding} {b : UInt8} {bs : Octets} {s t : Text}

theorem decode?_utf8 : utf8.decode? bs = some t ↔ bs = encode t := by
  rw [decode?, ← decode_eq_ok_iff]
  cases decode bs <;> simp [Except.toOption]

/-- What is read as two texts is octets of the one and octets of the other. -/
theorem decode?_append (h : e.decode? bs = some (s ++ t)) :
    ∃ u v, bs = u ++ v ∧ e.decode? u = some s ∧ e.decode? v = some t := by
  have hsingle (h : single bs = s ++ t) : ∃ u v, bs = u ++ v ∧ single u = s ∧ single v = t :=
    List.map_eq_append_iff.mp h
  cases e with
  | utf8 =>
    rw [decode?_utf8, encode_append] at h
    exact ⟨encode s, encode t, h, decode?_utf8.mpr rfl, decode?_utf8.mpr rfl⟩
  | latin1 =>
    obtain ⟨u, v, rfl, hu, hv⟩ := hsingle (Option.some.inj h)
    exact ⟨u, v, rfl, congrArg some hu, congrArg some hv⟩
  | ascii =>
    rw [decode?] at h
    split at h
    · next hall =>
      obtain ⟨u, v, rfl, hu, hv⟩ := hsingle (Option.some.inj h)
      rw [List.all_append, Bool.and_eq_true] at hall
      refine ⟨u, v, rfl, ?_, ?_⟩
      · rw [decode?, if_pos hall.1, hu]
      · rw [decode?, if_pos hall.2, hv]
    · cases h

theorem single_of_decode? (h : e.decode? bs = some t) : e = utf8 ∨ t = single bs := by
  cases e with
  | utf8 => exact .inl rfl
  | latin1 => exact .inr (Option.some.inj h).symm
  | ascii =>
    rw [decode?] at h
    split at h
    · exact .inr (Option.some.inj h).symm
    · cases h

/-- An octet of the ASCII range stands in the octets as often as its character in the text. -/
theorem count_of_decode? (h : e.decode? bs = some t) (hb : b.toNat < 0x80) :
    bs.count b = t.count (Char.ofNat b.toNat) := by
  rcases single_of_decode? h with rfl | rfl
  · rw [decode?_utf8.mp h, count_encode t hb]
  · exact (List.count_map_of_injective bs _ ofNat_injective b).symm

/-- A character of the ASCII range is read from its own octet. -/
theorem eq_singleton_of_decode? (h : e.decode? bs = some [Char.ofNat b.toNat]) (hb : b.toNat < 0x80) :
    bs = [b] := by
  rcases single_of_decode? h with rfl | heq
  · rw [decode?_utf8.mp h, encode_cons, utf8EncodeChar_ofNat hb, encode_nil, List.append_nil]
  · obtain ⟨x, rfl, hx⟩ := List.map_eq_singleton_iff.mp heq.symm
    rw [ofNat_injective hx]

end Markup.Encoding

namespace Markup

/-- The text of a document is read in some encoding, after a mark that holds no line end. -/
theorem exists_encoding_of_decode? {bs : Octets} {t : Text} (h : decode? bs = some t) :
    ∃ (e : Encoding) (mark rest : Octets), bs = mark ++ rest ∧ 0x0A ∉ mark ∧ e.decode? rest = some t := by
  unfold decode? at h
  split at h
  · next rest hmark =>
    refine ⟨.utf8, [0xEF, 0xBB, 0xBF], rest, ?_, by decide, h⟩
    unfold Encoding.afterMark? at hmark
    split at hmark
    · rw [Option.some.inj hmark]
      rfl
    · cases hmark
  · obtain ⟨e, -, he⟩ := Option.bind_eq_some_iff.mp h
    exact ⟨e, [], bs, rfl, List.not_mem_nil, he⟩

end Markup
end DraftLint

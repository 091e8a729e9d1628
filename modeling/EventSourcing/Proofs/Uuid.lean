/-
# The text of an identifier

An identifier is written as 32 digits in five groups.  Taking the hyphens out again leaves the
digits, and the digits spell the number, so the text of an identifier is read as that identifier.

What the file settles:

* `Hex.value?_digits`: the digits of a number spell what fits into them;
* `Uuid.parse?_text`: an identifier is read back from its text.
-/
import EventSourcing.Uuid

namespace EventSourcing

namespace Hex

theorem digitValue?_digit {d : Nat} (hd : d < 16) : digitValue? (digit d) = some d := by
  have all : ∀ d < 16, digitValue? (digit d) = some d := by decide
  exact all d hd

theorem value?_eq_foldlM (cs : List Char) :
    value? cs = cs.foldlM (fun n c => (digitValue? c).map (16 * n + ·)) 0 := by
  cases cs <;> rfl

/-- The digits of a number spell what of it fits into them. -/
theorem value?_digits (width n : Nat) : value? (digits width n) = some (n % Nat.pow 16 width) := by
  rw [value?_eq_foldlM]
  induction width generalizing n with
  | zero => exact congrArg some (Nat.mod_one n).symm
  | succ width ih =>
    have split : n % Nat.pow 16 (width + 1) = n % 16 + 16 * (n / 16 % Nat.pow 16 width) := by
      rw [show Nat.pow 16 (width + 1) = 16 * Nat.pow 16 width from Nat.pow_succ', Nat.mod_mul]
    rw [digits, List.foldlM_append, ih]
    show (digitValue? (digit (n % 16))).map (16 * (n / 16 % Nat.pow 16 width) + ·) >>= pure = _
    rw [digitValue?_digit (Nat.mod_lt _ (by omega)), split, Nat.add_comm]
    rfl

end Hex

namespace Uuid

theorem length_grouped {ds : List Char} (hlength : ds.length = 32) : (grouped ds).length = 36 := by
  simp [grouped, hlength]

/-- Five groups of digits with hyphens between them, and the digits without. -/
theorem grouped_eq {a b c d e : List Char} (ha : a.length = 8) (hb : b.length = 4)
    (hc : c.length = 4) (hd : d.length = 4) :
    grouped (a ++ b ++ c ++ d ++ e) = a ++ '-' :: b ++ '-' :: c ++ '-' :: d ++ '-' :: e := by
  simp [grouped, List.drop_append, List.drop_of_length_le, ha, hb, hc, hd]

/-- Digits in five groups are the digits of the groups. -/
theorem ofGrouped?_grouped {ds : List Char} (hlength : ds.length = 32) :
    ofGrouped? (grouped ds) = ofDigits? ds := by
  obtain ⟨a, b, c, d, e, rfl, ha, hb, hc, hd⟩ : ∃ a b c d e : List Char,
    ds = a ++ b ++ c ++ d ++ e ∧
      a.length = 8 ∧ b.length = 4 ∧ c.length = 4 ∧ d.length = 4 := by
    refine ⟨ds.take 8, (ds.drop 8).take 4, (ds.drop 12).take 4, (ds.drop 16).take 4,
      ds.drop 20, ?_, ?_⟩
    · have h₁ := List.take_append_drop 4 (ds.drop 8)
      have h₂ := List.take_append_drop 4 (ds.drop 12)
      have h₃ := List.take_append_drop 4 (ds.drop 16)
      rw [List.drop_drop] at h₁ h₂ h₃
      rw [List.append_assoc, List.append_assoc, List.append_assoc, h₃, h₂, h₁,
        List.take_append_drop]
    · simp only [List.length_take, List.length_drop]
      omega
  have bare : ∀ cs : List Char, cs = a ++ '-' :: b ++ '-' :: c ++ '-' :: d ++ '-' :: e →
      cs.take 8 ++ (cs.drop 9).take 4 ++ (cs.drop 14).take 4 ++ (cs.drop 19).take 4 ++ cs.drop 24 =
        a ++ b ++ c ++ d ++ e := by
    rintro cs rfl
    simp [List.drop_append, List.drop_of_length_le, ha, hb, hc, hd]
  have hgrouped := grouped_eq (e := e) ha hb hc hd
  unfold ofGrouped?
  dsimp only
  rw [bare _ hgrouped, if_pos ⟨length_grouped hlength, rfl⟩]

theorem ofNat_val (u : Uuid) : ofNat u.value.val = u := by
  obtain ⟨⟨n, hn⟩⟩ := u
  exact congrArg Uuid.mk (Fin.ext (Nat.mod_eq_of_lt hn))

/-- The digits of an identifier spell it. -/
theorem ofDigits?_digits (u : Uuid) : ofDigits? (Hex.digits 32 u.value.val) = some u := by
  have fits : u.value.val < Nat.pow 16 32 := u.value.isLt
  unfold ofDigits?
  rw [if_pos (Hex.length_digits _ _), Hex.value?_digits, Nat.mod_eq_of_lt fits]
  exact congrArg some u.ofNat_val

/-- **An identifier is read back from its text.** -/
@[simp] theorem parse?_text (u : Uuid) : parse? u.text = some u := by
  have hdigits := Hex.length_digits 32 u.value.val
  unfold parse? text
  rw [String.toList_ofList]
  dsimp only
  rw [length_grouped hdigits, if_neg (by omega), if_pos rfl, ofGrouped?_grouped hdigits,
    ofDigits?_digits]

end Uuid
end EventSourcing

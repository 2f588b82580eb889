import Schemata.Bytes.Base64

/-!
# Base64 text is read back

The letter of a value is read as that value (`base64Value?_base64Letter`) and is no filler. Three octets are four
letters, which are read as these octets before those of the rest, so the text of a byte string is read as the byte
string (`ofBase64?_base64`).
-/

namespace Schemata.Bytes

theorem base64Value?_base64Letter : ∀ n < 64, base64Value? (base64Letter n) = some n := by decide +kernel

theorem base64Letter_ne : ∀ n < 64, base64Letter n ≠ '=' := by decide +kernel

theorem ofNat_eq_of_toNat {n : Nat} {octet : UInt8} (h : n = octet.toNat) : UInt8.ofNat n = octet := by
  rw [h, UInt8.ofNat_toNat]

/-- Four letters without filler are three octets. -/
theorem readBase64_group {w x y z : Nat} (hw : w < 64) (hx : x < 64) (hy : y < 64) (hz : z < 64) (done : Bytes)
    (rest : List Char) :
    readBase64 done (base64Letter w :: base64Letter x :: base64Letter y :: base64Letter z :: rest) =
      readBase64 (UInt8.ofNat (y % 4 * 64 + z) :: UInt8.ofNat (x % 16 * 16 + y / 4) :: UInt8.ofNat (w * 4 + x / 16) ::
        done) rest := by
  have hne := base64Letter_ne z hz
  rw [readBase64]
  · simp only [base64Value?_base64Letter, hw, hx, hy, hz, Option.bind_eq_bind, Option.bind_some]
  · rintro - hfill -
    exact hne hfill
  · rintro hfill -
    exact hne hfill

/-! ## Octets from the values of letters -/

section Octets

variable (a b c : UInt8)

theorem ofNat_first : UInt8.ofNat (a.toNat / 4 * 4 + (a.toNat % 4 * 16 + b.toNat / 16) / 16) = a := by
  have hb := b.toNat_lt
  exact ofNat_eq_of_toNat (by omega)

theorem ofNat_second :
    UInt8.ofNat ((a.toNat % 4 * 16 + b.toNat / 16) % 16 * 16 + (b.toNat % 16 * 4 + c.toNat / 64) / 4) = b := by
  have hb := b.toNat_lt
  have hc := c.toNat_lt
  exact ofNat_eq_of_toNat (by omega)

theorem ofNat_third : UInt8.ofNat ((b.toNat % 16 * 4 + c.toNat / 64) % 4 * 64 + c.toNat % 64) = c := by
  have hc := c.toNat_lt
  exact ofNat_eq_of_toNat (by omega)

end Octets

/-! ## Texts -/

/-- **What is written is read back** behind the octets already read. -/
theorem readBase64_base64Onto : ∀ (done bytes : Bytes),
    readBase64 done (base64Onto [] bytes).reverse = some (done.reverse ++ bytes)
  | done, a :: b :: c :: rest => by
    have ha := a.toNat_lt
    have hb := b.toNat_lt
    have hc := c.toNat_lt
    have hletters : (base64Onto [] (a :: b :: c :: rest)).reverse =
        base64Letter (a.toNat / 4) :: base64Letter (a.toNat % 4 * 16 + b.toNat / 16) ::
          base64Letter (b.toNat % 16 * 4 + c.toNat / 64) :: base64Letter (c.toNat % 64) ::
            (base64Onto [] rest).reverse := by
      rw [base64Onto, base64Onto_eq]
      simp
    rw [hletters, readBase64_group (by omega) (by omega) (by omega) (by omega), readBase64_base64Onto _ rest,
      ofNat_first, ofNat_second, ofNat_third]
    simp
  | done, [a, b] => by
    have ha := a.toNat_lt
    have hb := b.toNat_lt
    have hsecond := ofNat_second a b 0
    have hfill := base64Letter_ne (b.toNat % 16 * 4) (by omega)
    simp only [UInt8.toNat_zero, Nat.zero_div, Nat.add_zero] at hsecond
    simp only [base64Onto, List.reverse_cons, List.reverse_nil, List.nil_append, List.cons_append]
    rw [readBase64]
    · simp only [base64Value?_base64Letter (a.toNat / 4) (by omega),
        base64Value?_base64Letter (a.toNat % 4 * 16 + b.toNat / 16) (by omega),
        base64Value?_base64Letter (b.toNat % 16 * 4) (by omega), Option.bind_eq_bind, Option.bind_some, ofNat_first,
        hsecond]
      simp
    · exact hfill
  | done, [a] => by
    have ha := a.toNat_lt
    have hfirst := ofNat_first a 0
    simp only [UInt8.toNat_zero, Nat.zero_div, Nat.add_zero] at hfirst
    simp only [base64Onto, List.reverse_cons, List.reverse_nil, List.nil_append, List.cons_append, readBase64,
      base64Value?_base64Letter (a.toNat / 4) (by omega), base64Value?_base64Letter (a.toNat % 4 * 16) (by omega),
      Option.bind_eq_bind, Option.bind_some, hfirst]
  | done, [] => by simp [base64Onto, readBase64]

/-- **Base64 text is read back.** -/
theorem ofBase64?_base64 (bytes : Bytes) : ofBase64? (base64 bytes) = some bytes := by
  rw [ofBase64?, base64, String.toList_ofList, readBase64_base64Onto]
  rfl

end Schemata.Bytes

import MozartLineage.Macaddr.Mac
import Mathlib.Tactic.IntervalCases

/-!
# Which texts spell an address

`Spells` says what the text of an address looks like: six groups of two hexadecimal
digits, in either case, with single colons between them. `parseMac` reads exactly the
texts that spell the address of a station, and to print what it has read gives the text in
upper case. The addresses that are generated are among those that can be read back.
-/

namespace MozartLineage.Macaddr

/-- A hexadecimal digit, in either case, and its value. -/
inductive HexDigit : UInt8 → ℕ → Prop where
  | decimal {c : UInt8} {n : ℕ} (hn : n < 10) (hc : c.toNat = '0'.toNat + n) : HexDigit c n
  | upper {c : UInt8} {n : ℕ} (hn : n < 6) (hc : c.toNat = 'A'.toNat + n) :
      HexDigit c (n + 10)
  | lower {c : UInt8} {n : ℕ} (hn : n < 6) (hc : c.toNat = 'a'.toNat + n) :
      HexDigit c (n + 10)

/-- Two digits that stand for a byte. -/
def SpellsByte (group : Text) (byte : UInt8) : Prop :=
  ∃ c d high low, group = [c, d] ∧ HexDigit c high ∧ HexDigit d low ∧
    byte.toNat = high * 16 + low

/-- Six groups with single colons between them. -/
def Spells (text : Text) (a : Address) : Prop :=
  ∃ groups : Fin 6 → Text, (∀ i, SpellsByte (groups i) (a i)) ∧
    text = List.intercalate [':'.toUInt8] (List.ofFn groups)

/-- `toupper` of the C locale. -/
def toupper (value : UInt8) : UInt8 :=
  if 'a'.toUInt8 ≤ value ∧ value ≤ 'z'.toUInt8 then value - 32 else value

/-- The text with the characters `c i` and `d i` in the group `i`. -/
def written (c d : Fin 6 → UInt8) : Text :=
  List.intercalate [':'.toUInt8] (List.ofFn fun i => [c i, d i])

variable {a : Address} {text : Text} {c d : Fin 6 → UInt8}

/-! ### Digits -/

theorem HexDigit.lt {c : UInt8} {n : ℕ} (h : HexDigit c n) : n < 16 := by
  cases h <;> omega

/-- There are twenty-two digits. -/
theorem HexDigit.forall {P : UInt8 → ℕ → Prop}
    (hdecimal : ∀ n < 10, P (UInt8.ofNat ('0'.toNat + n)) n)
    (hupper : ∀ n < 6, P (UInt8.ofNat ('A'.toNat + n)) (n + 10))
    (hlower : ∀ n < 6, P (UInt8.ofNat ('a'.toNat + n)) (n + 10))
    {c : UInt8} {n : ℕ} (h : HexDigit c n) : P c n := by
  have hofNat : UInt8.ofNat c.toNat = c := UInt8.ofNat_toNat
  cases h with
  | decimal hn hc =>
      rw [← hofNat, hc]
      exact hdecimal _ hn
  | upper hn hc =>
      rw [← hofNat, hc]
      exact hupper _ hn
  | lower hn hc =>
      rw [← hofNat, hc]
      exact hlower _ hn

theorem HexDigit.hexValue {c : UInt8} {n : ℕ} (h : HexDigit c n) : hexValue c = some n :=
  HexDigit.forall (P := fun c n => Macaddr.hexValue c = some n)
    (by decide) (by decide) (by decide) h

theorem HexDigit.toupper {c : UInt8} {n : ℕ} (h : HexDigit c n) : toupper c = hexDigit n :=
  HexDigit.forall (P := fun c n => Macaddr.toupper c = hexDigit n)
    (by decide) (by decide) (by decide) h

theorem hexDigit_of_hexValue {c : UInt8} {n : ℕ} (h : hexValue c = some n) : HexDigit c n := by
  have h0 : '0'.toUInt8.toNat = 48 := rfl
  have h9 : '9'.toUInt8.toNat = 57 := rfl
  have hA : 'A'.toUInt8.toNat = 65 := rfl
  have hZ : 'Z'.toUInt8.toNat = 90 := rfl
  have ha : 'a'.toUInt8.toNat = 97 := rfl
  have hf : 'f'.toUInt8.toNat = 102 := rfl
  simp only [Macaddr.hexValue, tolower, UInt8.le_iff_toNat_le, h0, h9, hA, hZ, ha, hf] at h
  split_ifs at h with hdecimal hupper hletter hletter
  · have hle : '0'.toUInt8 ≤ c := UInt8.le_iff_toNat_le.2 (h0 ▸ hdecimal.1)
    rw [UInt8.toNat_sub_of_le _ _ hle, h0] at h
    cases h
    exact .decimal (by omega) (by simp; omega)
  · have hsmall : (c + 32).toNat = c.toNat + 32 := by
      rw [UInt8.toNat_add]
      simp
      omega
    have hle : 'a'.toUInt8 ≤ c + 32 := UInt8.le_iff_toNat_le.2 (ha ▸ hletter.1)
    rw [UInt8.toNat_sub_of_le _ _ hle, hsmall, ha] at h
    cases h
    exact .upper (by omega) (by simp; omega)
  · have hle : 'a'.toUInt8 ≤ c := UInt8.le_iff_toNat_le.2 (ha ▸ hletter.1)
    rw [UInt8.toNat_sub_of_le _ _ hle, ha] at h
    cases h
    exact .lower (by omega) (by simp; omega)

/-- The two digits of a byte are put together without a carry. -/
theorem ofNat_eq_iff {high low : ℕ} (hhigh : high < 16) (hlow : low < 16) {byte : UInt8} :
    UInt8.ofNat (high <<< 4 ||| low) = byte ↔ byte.toNat = high * 16 + low := by
  rw [← Nat.shiftLeft_add_eq_or_of_lt (show low < 2 ^ 4 from hlow), Nat.shiftLeft_eq]
  constructor
  · rintro rfl
    exact UInt8.toNat_ofNat_of_lt' (show high * 2 ^ 4 + low < 2 ^ 8 by omega)
  · intro hbyte
    rw [← UInt8.ofNat_toNat (x := byte), hbyte]

/-! ### Groups -/

theorem parseGroup_eq_some {i : ℕ} {byte : UInt8} :
    parseGroup text i = some byte ↔
      ∃ high low, hexValue (text.getD (i * 3) 0) = some high ∧
        hexValue (text.getD (i * 3 + 1) 0) = some low ∧
        (i < 5 → text.getD (i * 3 + 2) 0 = ':'.toUInt8) ∧
        UInt8.ofNat (high <<< 4 ||| low) = byte := by
  simp only [parseGroup, Option.bind_eq_some_iff]
  constructor
  · rintro ⟨high, hhigh, low, hlow, h⟩
    split_ifs at h with hcolon
    cases h
    exact ⟨high, low, hhigh, hlow, fun hi => by_contra fun hne => hcolon ⟨hi, hne⟩, rfl⟩
  · rintro ⟨high, low, hhigh, hlow, hcolon, rfl⟩
    refine ⟨high, hhigh, low, hlow, ?_⟩
    rw [if_neg fun h => h.2 (hcolon h.1)]

theorem parseGroup_written (i : Fin 6) :
    parseGroup (written c d) i = (hexValue (c i)).bind fun high =>
      (hexValue (d i)).bind fun low => some (UInt8.ofNat (high <<< 4 ||| low)) := by
  fin_cases i <;> simp [parseGroup, written, List.ofFn_succ, List.intercalate]

/-- A text of the right length with its colons in place. -/
theorem eq_written (hlength : text.length = 17)
    (hcolon : ∀ i < 5, text.getD (i * 3 + 2) 0 = ':'.toUInt8) :
    text = written (fun i => text.getD (i * 3) 0) fun i => text.getD (i * 3 + 1) 0 := by
  apply List.ext_getElem hlength
  intro n hn _
  have htext : text[n] = text.getD n 0 := List.getElem_eq_getD 0
  rw [htext]
  rw [hlength] at hn
  have h0 := hcolon 0 (by decide)
  have h1 := hcolon 1 (by decide)
  have h2 := hcolon 2 (by decide)
  have h3 := hcolon 3 (by decide)
  have h4 := hcolon 4 (by decide)
  interval_cases n <;> first | rfl | assumption

/-! ### Addresses -/

theorem spells_of_parseMac (h : parseMac text = some a) : Spells text a := by
  obtain ⟨hlength, hgroups, -⟩ := parseMac_eq_some.1 h
  refine ⟨fun i => [text.getD (i * 3) 0, text.getD (i * 3 + 1) 0], fun i => ?_, ?_⟩
  · obtain ⟨high, low, hhigh, hlow, -, hbyte⟩ := parseGroup_eq_some.1 (hgroups i)
    have hhigh := hexDigit_of_hexValue hhigh
    have hlow := hexDigit_of_hexValue hlow
    exact ⟨_, _, high, low, rfl, hhigh, hlow, (ofNat_eq_iff hhigh.lt hlow.lt).1 hbyte⟩
  · refine eq_written hlength fun i hi => ?_
    obtain ⟨-, -, -, -, hcolon, -⟩ := parseGroup_eq_some.1 (hgroups ⟨i, by omega⟩)
    exact hcolon hi

theorem Spells.exists_written (h : Spells text a) :
    ∃ (c d : Fin 6 → UInt8) (high low : Fin 6 → ℕ), text = written c d ∧
      ∀ i, HexDigit (c i) (high i) ∧ HexDigit (d i) (low i) ∧
        (a i).toNat = high i * 16 + low i := by
  obtain ⟨groups, hgroups, rfl⟩ := h
  choose c d high low hgroup hc hd hbyte using hgroups
  refine ⟨c, d, high, low, ?_, fun i => ⟨hc i, hd i, hbyte i⟩⟩
  rw [funext hgroup, written]

theorem Spells.parseMac (h : Spells text a) (hstation : a.IsStation) :
    parseMac text = some a := by
  obtain ⟨c, d, high, low, rfl, hdigits⟩ := h.exists_written
  refine parseMac_eq_some.2 ⟨rfl, fun i => ?_, hstation⟩
  obtain ⟨hc, hd, hbyte⟩ := hdigits i
  rw [parseGroup_written, hc.hexValue, hd.hexValue]
  exact congrArg some ((ofNat_eq_iff hc.lt hd.lt).2 hbyte)

theorem map_toupper_written :
    (written c d).map toupper = written (fun i => toupper (c i)) fun i => toupper (d i) := rfl

/-- A text that spells an address is printed in upper case. -/
theorem Spells.formatMac (h : Spells text a) : formatMac a = text.map toupper := by
  obtain ⟨c, d, high, low, rfl, hdigits⟩ := h.exists_written
  have hbyte : ∀ i, formatByte (a i) = [toupper (c i), toupper (d i)] := by
    intro i
    obtain ⟨hc, hd, hbyte⟩ := hdigits i
    have hlow := hd.lt
    have hdiv : (a i).toNat / 16 = high i := by omega
    have hmod : (a i).toNat % 16 = low i := by omega
    rw [formatByte, hdiv, hmod, hc.toupper, hd.toupper]
  rw [map_toupper_written, written, Macaddr.formatMac]
  simp only [hbyte]

/-- What is accepted is what spells the address of a station, a generated address is read
back from what is printed of it, and what was read is printed in upper case. -/
theorem parseMac_codec :
    (∀ text a, parseMac text = some a ↔ Spells text a ∧ a.IsStation) ∧
      (∀ random, parseMac (formatMac (generateMac random)) = some (generateMac random)) ∧
      ∀ text a, parseMac text = some a → formatMac a = text.map toupper := by
  refine ⟨fun text a => ⟨fun h => ?_, fun h => h.1.parseMac h.2⟩, fun random => ?_, ?_⟩
  · exact ⟨spells_of_parseMac h, (parseMac_eq_some.1 h).2.2⟩
  · exact parseMac_formatMac (isStation_generateMac random)
  · exact fun text a h => (spells_of_parseMac h).formatMac

end MozartLineage.Macaddr

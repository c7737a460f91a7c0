import Mathlib.Data.Fintype.Basic
import Mathlib.Data.List.DropRight
import Mathlib.Data.List.OfFn
import Mathlib.Logic.Function.Basic
import Mathlib.Tactic.FinCases

/-!
# The text of a MAC address

An address is stored as six two-digit groups with colons between them. `parseMac`
reads such a text, in either case, and refuses the addresses that a station must not
have; `formatMac` prints an address in upper case. What `generateMac` makes of six
random bytes is printed to a text that `parseMac` accepts.
-/

namespace MozartLineage.Macaddr

abbrev Text := List UInt8

abbrev Address := Fin 6 → UInt8

/-- `tolower` of the C locale. -/
def tolower (value : UInt8) : UInt8 :=
  if 'A'.toUInt8 ≤ value ∧ value ≤ 'Z'.toUInt8 then value + 32 else value

def hexValue (value : UInt8) : Option ℕ :=
  if '0'.toUInt8 ≤ value ∧ value ≤ '9'.toUInt8 then some (value - '0'.toUInt8).toNat
  else
    let value := tolower value
    if 'a'.toUInt8 ≤ value ∧ value ≤ 'f'.toUInt8 then
      some ((value - 'a'.toUInt8).toNat + 10)
    else none

/-- The byte of the group `index`; every group but the last one ends in a colon. -/
def parseGroup (text : Text) (index : ℕ) : Option UInt8 :=
  let offset := index * 3
  (hexValue (text.getD offset 0)).bind fun high =>
    (hexValue (text.getD (offset + 1) 0)).bind fun low =>
      if index < 5 ∧ text.getD (offset + 2) 0 ≠ ':'.toUInt8 then none
      else some (UInt8.ofNat (high <<< 4 ||| low))

namespace Address

def first (a : Address) : UInt8 := a ⟨0, by decide⟩

/-- Neither all zero nor all ones, and not a multicast address. -/
def IsStation (a : Address) : Prop :=
  ¬ (∀ i, a i = 0) ∧ ¬ (∀ i, a i = 0xff) ∧ a.first &&& 0x01 = 0

instance (a : Address) : Decidable a.IsStation := inferInstanceAs (Decidable (_ ∧ _))

end Address

/-- The loop over the groups. -/
def parseGroups (text : Text) : Option Address :=
  if h : ∀ i : Fin 6, (parseGroup text i).isSome then
    some fun i => (parseGroup text i).get (h i)
  else none

def parseMac (text : Text) : Option Address :=
  if text.length ≠ 17 then none
  else (parseGroups text).filter fun address => address.IsStation

/-- `isspace` of the C locale. -/
def isspace (value : UInt8) : Bool := value = 32 ∨ 9 ≤ value ∧ value ≤ 13

/-- The judgement on the bytes that were read from the file. -/
def acceptsMac (bytes : Text) : Bool := bytes ≠ [] ∧ (parseMac (bytes.rdropWhile isspace)).isSome

/-- The six random bytes, with the local bit set and the multicast bit cleared. -/
def generateMac (random : Address) : Address :=
  Function.update random ⟨0, by decide⟩ (random.first &&& 0xfe ||| 0x02)

/-- A digit of the format `%X`. -/
def hexDigit (value : ℕ) : UInt8 :=
  if value < 10 then '0'.toUInt8 + UInt8.ofNat value else 'A'.toUInt8 + UInt8.ofNat (value - 10)

/-- The format `%02X`. -/
def formatByte (byte : UInt8) : Text := [hexDigit (byte.toNat / 16), hexDigit (byte.toNat % 16)]

def formatMac (address : Address) : Text :=
  List.intercalate [':'.toUInt8] (List.ofFn fun i => formatByte (address i))

variable {a : Address} {text : Text}

theorem parseGroups_eq_some :
    parseGroups text = some a ↔ ∀ i : Fin 6, parseGroup text i = some (a i) := by
  unfold parseGroups
  split_ifs with h
  · rw [Option.some.injEq, funext_iff]
    exact forall_congr' fun i => by simp [Option.eq_some_iff_get_eq, h i]
  · refine iff_of_false (by simp) fun ha => h fun i => ?_
    rw [ha i, Option.isSome_some]

theorem parseMac_eq_some :
    parseMac text = some a ↔
      text.length = 17 ∧ (∀ i : Fin 6, parseGroup text i = some (a i)) ∧ a.IsStation := by
  unfold parseMac
  split_ifs with h
  · simp [h]
  · rw [Option.filter_eq_some_iff, parseGroups_eq_some]
    simp [not_not.1 h]

theorem hexValue_hexDigit : ∀ value < 16, hexValue (hexDigit value) = some value := by
  decide

/-- The digits of a byte are put together again. -/
theorem ofNat_digits (byte : UInt8) :
    UInt8.ofNat ((byte.toNat / 16) <<< 4 ||| byte.toNat % 16) = byte := by
  have hlow : byte.toNat % 16 < 2 ^ 4 := Nat.mod_lt _ (by decide)
  rw [← Nat.shiftLeft_add_eq_or_of_lt hlow, Nat.shiftLeft_eq, Nat.div_add_mod']
  simp

@[simp] theorem length_formatMac (a : Address) : (formatMac a).length = 17 := rfl

theorem parseGroup_formatMac (a : Address) (i : Fin 6) :
    parseGroup (formatMac a) i = some (a i) := by
  have hhigh : hexValue (hexDigit ((a i).toNat / 16)) = some ((a i).toNat / 16) :=
    hexValue_hexDigit _ (by have := (a i).toNat_lt; omega)
  have hlow : hexValue (hexDigit ((a i).toNat % 16)) = some ((a i).toNat % 16) :=
    hexValue_hexDigit _ (Nat.mod_lt _ (by decide))
  have hbyte := ofNat_digits (a i)
  fin_cases i <;>
    simp_all [parseGroup, formatMac, formatByte, List.ofFn_succ, List.intercalate]

/-- What is printed of a station's address parses back to it. -/
theorem parseMac_formatMac (h : a.IsStation) : parseMac (formatMac a) = some a :=
  parseMac_eq_some.2 ⟨length_formatMac a, parseGroup_formatMac a, h⟩

theorem isStation_generateMac (random : Address) : (generateMac random).IsStation := by
  have hfirst : (generateMac random).first = random.first &&& 0xfe ||| 0x02 := by
    simp [generateMac, Address.first]
  have hmulticast : (generateMac random).first &&& 0x01 = 0 := by
    rw [hfirst, ← UInt8.toBitVec_inj]
    simp only [UInt8.toBitVec_and, UInt8.toBitVec_or]
    rw [BitVec.and_or_distrib_right, BitVec.and_assoc]
    exact (BitVec.or_zero).trans BitVec.and_zero
  refine ⟨fun hzero => ?_, fun hff => ?_, hmulticast⟩
  · have hlocal : random.first &&& 0xfe ||| 0x02 = 0 := hfirst.symm.trans (hzero _)
    exact absurd (UInt8.or_eq_zero_iff.1 hlocal).2 (by decide)
  · rw [Address.first, hff] at hmulticast
    exact absurd hmulticast (by decide)

theorem isspace_hexDigit : ∀ value < 16, isspace (hexDigit value) = false := by decide

/-- What is printed has no whitespace at its end. -/
theorem rdropWhile_formatMac (a : Address) : (formatMac a).rdropWhile isspace = formatMac a := by
  refine List.rdropWhile_eq_self_iff.2 fun hne => ?_
  have hlast : (formatMac a).getLast hne = hexDigit ((a (Fin.last 5)).toNat % 16) := rfl
  rw [hlast, isspace_hexDigit _ (Nat.mod_lt _ (by decide))]
  exact Bool.false_ne_true

theorem acceptsMac_formatMac (h : a.IsStation) : acceptsMac (formatMac a) := by
  have hne : formatMac a ≠ [] := List.ne_nil_of_length_pos (by simp)
  simp [acceptsMac, hne, rdropWhile_formatMac, parseMac_formatMac h]

end MozartLineage.Macaddr

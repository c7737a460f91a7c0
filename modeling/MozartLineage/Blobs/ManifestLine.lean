import MozartLineage.Container.Fields
import Mathlib.Data.List.DropRight

/-!
# Lines of the manifest

A line loses its comment and the whitespace around it. What is in front of its first
semicolon is the path of a file; the source and the digest are looked for in the rest,
without regard to where a field begins. Classes of characters are those of the C locale.
-/

namespace MozartLineage.Blobs

open Fields

abbrev Text := List Char

/-- `[[:space:]]` -/
def isSpace (c : Char) : Bool := c ∈ [' ', '\t', '\n', '\x0b', '\x0c', '\r']

/-- `[0-9a-fA-F]` -/
def isHexDigit (c : Char) : Bool :=
  ('0' ≤ c ∧ c ≤ '9') ∨ ('a' ≤ c ∧ c ≤ 'f') ∨ ('A' ≤ c ∧ c ≤ 'F')

def lower (t : Text) : Text := t.map Char.toLower

def trim (value : Text) : Text := (value.dropWhile isSpace).rdropWhile isSpace

/-- The lines that the loop reads: a last one without a newline only if it is not empty. -/
def readLines (text : Text) : List Text :=
  let parts := text.splitOn '\n'
  parts.dropLast ++ parts.getLast?.toList.filter (· ≠ [])

def lineOf (rawLine : Text) : Text := trim (rawLine.takeWhile (· ≠ '#'))

def relOf (line : Text) : Text := line.takeWhile (· ≠ ';')

def metaOf (line : Text) : Text := line.drop (relOf line).length

def sourceKey : Text := "source=".toList

def sha1Key : Text := "sha1=".toList

def sourceRelOf (line : Text) : Text :=
  (firstGroup sourceKey (· ≠ ';') (metaOf line)).getD (relOf line)

/-- The digits that are read off a line. -/
def sha1Digits (line : Text) : Option Text := firstGroup sha1Key isHexDigit (metaOf line)

/-- Empty where there are no digits. -/
def expectedSha1Of (line : Text) : Text := ((sha1Digits line).map lower).getD []

/-- A field begins with the key of a digest, and `rest` is the rest of it. -/
def HasSha1 (line rest : Text) : Prop := sha1Key ++ rest ∈ line.splitOn ';'

instance (line rest : Text) : Decidable (HasSha1 line rest) :=
  inferInstanceAs (Decidable (_ ∈ _))

/-- The fields of a line agree with what is read off it: they all say the same digits.
Where no digits are read only the path itself may look like a field, that of the digest of
its own file. -/
def Agrees (line digest : Text) : Prop :=
  match sha1Digits line with
  | some digits => ∀ rest, HasSha1 line rest → lower rest = lower digits
  | none => (∀ rest, ¬ HasSha1 (metaOf line) rest) ∧
      ∀ rest, relOf line = sha1Key ++ rest → lower digest = lower rest

/-- A digest as it is printed. -/
structure IsDigest (digest : Text) : Prop where
  ne_nil : digest ≠ []
  isHexDigit : ∀ c ∈ digest, isHexDigit c
  lower_eq : lower digest = digest

instance (digest : Text) : Decidable (IsDigest digest) :=
  decidable_of_iff (digest ≠ [] ∧ digest.all isHexDigit ∧ lower digest = digest)
    ⟨fun h => ⟨h.1, List.all_eq_true.1 h.2.1, h.2.2⟩,
      fun h => ⟨h.ne_nil, List.all_eq_true.2 h.isHexDigit, h.lower_eq⟩⟩

variable {line digits digest rest : Text} {c : Char}

theorem isHexDigit_toLower : isHexDigit c.toLower = isHexDigit c := by
  unfold isHexDigit Char.toLower
  split <;> grind [UInt32.toNat_add, Char.toNat_val, Char.le_def, UInt32.le_iff_toNat_le]

theorem metaOf_eq (line : Text) : metaOf line = line.dropWhile (· ≠ ';') := by
  rw [metaOf, relOf]
  nth_rewrite 2 [← List.takeWhile_append_dropWhile (p := (· ≠ ';')) (l := line)]
  rw [List.drop_left]

/-- The path is the first field, the others are those behind it. -/
theorem hasSha1_iff :
    HasSha1 line rest ↔ relOf line = sha1Key ++ rest ∨ HasSha1 (metaOf line) rest := by
  have hmeta : HasSha1 (metaOf line) rest ↔
      sha1Key ++ rest ∈ ((metaOf line).splitOn ';').tail := by
    rw [HasSha1, metaOf_eq, splitOn_dropWhile]
    simp [sha1Key]
  rw [hmeta, HasSha1, splitOn_eq_cons, List.mem_cons, metaOf_eq, relOf, eq_comm]

/-- What is read off a line is read off one of the fields behind the path. -/
theorem sha1Digits_eq_findSome? (line : Text) :
    sha1Digits line = ((metaOf line).splitOn ';').findSome? (firstGroup sha1Key isHexDigit) :=
  firstGroup_eq_findSome? (by decide) (by decide) (by decide) (metaOf line)

theorem isHexDigit_of_mem_expectedSha1Of (h : c ∈ expectedSha1Of line) : isHexDigit c := by
  unfold expectedSha1Of at h
  cases hdigits : sha1Digits line with
  | none => simp [hdigits] at h
  | some digits =>
      simp only [hdigits, Option.map_some, Option.getD_some] at h
      obtain ⟨c', hc', rfl⟩ := List.mem_map.1 h
      rw [isHexDigit_toLower]
      exact (of_firstGroup_eq_some hdigits).2 c' hc'

theorem expectedSha1Of_eq_nil : expectedSha1Of line = [] ↔ sha1Digits line = none := by
  unfold expectedSha1Of
  cases hdigits : sha1Digits line with
  | none => simp
  | some digits => simpa [lower] using (of_firstGroup_eq_some hdigits).1

/-- A field that says a digest has digits that are read, unless it is the path. -/
theorem sha1Digits_ne_none (hdigest : IsDigest digest) (h : HasSha1 (metaOf line) rest)
    (heq : lower digest = lower rest) : sha1Digits line ≠ none := by
  cases rest with
  | nil =>
      rw [hdigest.lower_eq] at heq
      exact (hdigest.ne_nil heq).elim
  | cons c rest =>
      have hc : isHexDigit c := by
        rw [← isHexDigit_toLower]
        apply hdigest.isHexDigit
        rw [← hdigest.lower_eq, heq]
        exact List.mem_cons_self
      exact Option.ne_none_iff_isSome.2 (firstGroup_isSome (infix_of_mem_splitOn h) hc)

/-- Where the digest is the one that is read, if one is, the fields agree if and only if all
of them say the digest. -/
theorem agrees_iff (hdigest : IsDigest digest)
    (hread : ∀ digits, sha1Digits line = some digits → digest = lower digits) :
    Agrees line digest ↔ ∀ rest, HasSha1 line rest → lower digest = lower rest := by
  unfold Agrees
  cases hdigits : sha1Digits line with
  | some digits =>
      have heq : lower digest = lower digits := hdigest.lower_eq.trans (hread digits hdigits)
      constructor
      · intro h rest hrest
        rw [heq, h rest hrest]
      · intro h rest hrest
        rw [← h rest hrest, heq]
  | none =>
      constructor
      · rintro ⟨hmeta, hrel⟩ rest hrest
        rcases hasSha1_iff.1 hrest with h | h
        · exact hrel rest h
        · exact (hmeta rest h).elim
      · intro h
        refine ⟨fun rest hrest => ?_, fun rest hrest => h rest (hasSha1_iff.2 (Or.inl hrest))⟩
        exact sha1Digits_ne_none hdigest hrest (h rest (hasSha1_iff.2 (Or.inr hrest))) hdigits

/-- A line as it is meant to be: its path does not look like a digest, and the key of one
stands nowhere but in front of the digits, in a field of its own. -/
theorem agrees_of_fields (hrel : ¬ sha1Key <+: relOf line) (hne : digits ≠ [])
    (hhex : ∀ c ∈ digits, isHexDigit c) (hmem : HasSha1 (metaOf line) digits)
    (honly : ∀ f ∈ (metaOf line).splitOn ';', sha1Key <:+: f → f = sha1Key ++ digits) :
    Agrees line digest := by
  have hgroup : firstGroup sha1Key isHexDigit (sha1Key ++ digits) = some digits :=
    firstGroup_append (by decide) hne hhex
  have hdigits : sha1Digits line = some digits := by
    have hsome :
        (((metaOf line).splitOn ';').findSome? (firstGroup sha1Key isHexDigit)).isSome := by
      rw [List.findSome?_isSome_iff]
      exact ⟨_, hmem, by simp [hgroup]⟩
    obtain ⟨found, hfound⟩ := Option.isSome_iff_exists.1 hsome
    obtain ⟨f, hf, hfgroup⟩ := List.exists_of_findSome?_eq_some hfound
    rw [honly f hf (infix_of_firstGroup hfgroup), hgroup] at hfgroup
    rw [sha1Digits_eq_findSome?, hfound, hfgroup]
  unfold Agrees
  rw [hdigits]
  intro rest hrest
  rcases hasSha1_iff.1 hrest with h | h
  · exact (hrel (h ▸ List.prefix_append sha1Key rest)).elim
  · have heq := honly _ h (List.prefix_append sha1Key rest).isInfix
    rw [List.append_cancel_left heq]

end MozartLineage.Blobs

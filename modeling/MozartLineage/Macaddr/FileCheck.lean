import MozartLineage.Macaddr.Codec
import MozartLineage.Macaddr.EnsureMac

/-!
# What the check of a file sees of it

`HasValidMac` reads once, into a buffer of 32 bytes, and judges what it has got. An address
takes 17 bytes and may be followed by whitespace, so the answer depends on what comes after
the buffer exactly when the buffer is full of an address and whitespace: then the check
does not see what makes the file invalid.
-/

namespace MozartLineage.Macaddr

open Transition

/-- The check of a file that can be opened if it is there, and that is read as far as the
buffer goes. -/
def hasValidMac (file : Option Text) : Bool :=
  match file with
  | none => false
  | some content => acceptsMac (content.take bufferSize)

/-- The whole content without the whitespace at its end is a text that is accepted. -/
def HoldsMac (content : Text) : Prop := (parseMac (content.rdropWhile isspace)).isSome

/-- An address and fifteen bytes of whitespace, and later another byte that is not whitespace. -/
def HidesTail (content : Text) : Prop :=
  (parseMac (content.take 17)).isSome ∧ (∀ c ∈ (content.take bufferSize).drop 17, isspace c) ∧
    ∃ c ∈ content.drop bufferSize, ¬ isspace c

instance (content : Text) : Decidable (HoldsMac content) := inferInstanceAs (Decidable (_ = _))

instance (content : Text) : Decidable (HidesTail content) :=
  inferInstanceAs (Decidable (_ ∧ _))

variable {text content : Text} {a : Address}

/-! ### Trimming -/

theorem rdropWhile_append_of_forall {rest : Text} (h : ∀ c ∈ rest, isspace c) :
    (text ++ rest).rdropWhile isspace = text.rdropWhile isspace := by
  induction rest using List.reverseRecOn with
  | nil => rw [List.append_nil]
  | append_singleton rest c ih =>
      rw [← List.append_assoc, List.rdropWhile_concat_pos _ _ _ (h c (by simp))]
      exact ih fun c hc => h c (by simp [hc])

theorem isspace_of_hexValue {c : UInt8} {n : ℕ} (h : hexValue c = some n) : isspace c = false :=
  HexDigit.forall (P := fun c _ => isspace c = false) (by decide) (by decide) (by decide)
    (hexDigit_of_hexValue h)

/-- An accepted text does not end in whitespace. -/
theorem rdropWhile_of_parseMac (h : (parseMac text).isSome) : text.rdropWhile isspace = text := by
  obtain ⟨a, ha⟩ := Option.isSome_iff_exists.1 h
  obtain ⟨hlength, hgroups, -⟩ := parseMac_eq_some.1 ha
  obtain ⟨-, low, -, hlow, -⟩ := parseGroup_eq_some.1 (hgroups 5)
  have hspace : isspace (text.getD 16 0) = false := isspace_of_hexValue hlow
  refine List.rdropWhile_eq_self_iff.2 fun hne => ?_
  have hlast : text.getLast hne = text.getD 16 0 := by
    simp only [List.getLast_eq_getElem, hlength]
    exact List.getElem_eq_getD 0
  rw [hlast, hspace]
  exact Bool.false_ne_true

/-- A text holds an address if its first bytes are one, and the others are whitespace. -/
theorem holdsMac_iff :
    HoldsMac text ↔ (parseMac (text.take 17)).isSome ∧ ∀ c ∈ text.drop 17, isspace c := by
  constructor
  · intro h
    obtain ⟨a, ha⟩ := Option.isSome_iff_exists.1 h
    have hlength := (parseMac_eq_some.1 ha).1
    have hsplit : text.rdropWhile isspace ++ text.rtakeWhile isspace = text :=
      List.rdropWhile_append_rtakeWhile
    have htake : text.take 17 = text.rdropWhile isspace := by
      rw [← hsplit, List.take_left' hlength, hsplit]
    have hdrop : text.drop 17 = text.rtakeWhile isspace := by
      rw [← hsplit, List.drop_left' hlength, hsplit]
    rw [htake, hdrop]
    exact ⟨h, fun c hc => List.mem_rtakeWhile_imp hc⟩
  · rintro ⟨hparse, hspace⟩
    have htrim : text.rdropWhile isspace = text.take 17 := by
      calc text.rdropWhile isspace
          = (text.take 17 ++ text.drop 17).rdropWhile isspace := by rw [List.take_append_drop]
        _ = (text.take 17).rdropWhile isspace := rdropWhile_append_of_forall hspace
        _ = text.take 17 := rdropWhile_of_parseMac hparse
    rwa [HoldsMac, htrim]

theorem acceptsMac_iff : acceptsMac text ↔ HoldsMac text := by
  have hne : (parseMac (text.rdropWhile isspace)).isSome → text ≠ [] := by
    rintro h rfl
    exact Bool.false_ne_true h
  simpa [acceptsMac, HoldsMac] using hne

/-! ### The buffer -/

theorem hasValidMac_iff : hasValidMac (some content) ↔ HoldsMac (content.take bufferSize) :=
  acceptsMac_iff

/-- The whole content is judged by the buffer and by what comes after it. -/
theorem holdsMac_iff_take :
    HoldsMac content ↔ HoldsMac (content.take bufferSize) ∧
      ∀ c ∈ content.drop bufferSize, isspace c := by
  have hdrop : content.drop 17 = (content.take bufferSize).drop 17 ++ content.drop bufferSize := by
    have hrest : content.drop bufferSize = (content.drop 17).drop (bufferSize - 17) := by
      simp [bufferSize]
    rw [List.drop_take, hrest, List.take_append_drop]
  have hhead := @holdsMac_iff (content.take bufferSize)
  rw [hhead, holdsMac_iff, List.take_take, and_assoc, hdrop]
  simp [bufferSize, or_imp, forall_and]

theorem hidesTail_iff :
    HidesTail content ↔ HoldsMac (content.take bufferSize) ∧
      ¬ ∀ c ∈ content.drop bufferSize, isspace c := by
  rw [HidesTail, holdsMac_iff, List.take_take, and_assoc]
  simp [bufferSize]

/-- The check judges the whole file unless a byte that makes it invalid comes after a buffer
that is full of an address and whitespace. -/
theorem hasValidMac_iff_holdsMac_iff :
    (hasValidMac (some content) ↔ HoldsMac content) ↔ ¬ HidesTail content := by
  have hwhole := @holdsMac_iff_take content
  rw [hasValidMac_iff, hidesTail_iff, hwhole]
  constructor
  · rintro hjudges ⟨hhead, htail⟩
    exact htail (hjudges.1 hhead).2
  · intro hshows
    refine ⟨fun hhead => ⟨hhead, ?_⟩, And.left⟩
    by_contra htail
    exact hshows ⟨hhead, htail⟩

/-- `02:00:00:00:00:01`, fifteen spaces and an `x`. -/
def paddedMac : Text :=
  formatMac (Function.update (fun _ => 0) 0 2) ++ List.replicate 15 32 ++ ['x'.toUInt8]

theorem not_hasValidMac_iff_padded :
    ¬ (hasValidMac (some paddedMac) ↔ HoldsMac paddedMac) := by
  decide

/-- What `EnsureMac` does with the target that it has opened, when the read gives what there
is. -/
theorem run_readTarget {s : State} (hs : s.thread = .readingTarget) :
    step.run s [.readTarget (.ok (min bufferSize s.text.length)), .closeTarget] =
      some (if hasValidMac (some s.text) then
        ({ s with thread := .idle }, [.accepted, .returned true])
      else s.goto .openingUrandom) := by
  have hread : CanRead s (min bufferSize s.text.length) := by
    refine ⟨le_rfl, fun h => List.length_eq_zero_iff.1 ?_⟩
    unfold bufferSize at h
    omega
  have htake : s.text.take (min bufferSize s.text.length) = s.text.take bufferSize := by
    rw [← List.take_take, List.take_length]
  have hclose : step (s.goto (.closingTarget (s.text.take bufferSize))).1 .closeTarget =
      some (if hasValidMac (some s.text) then
        ({ s with thread := .idle }, [.accepted, .returned true])
      else s.goto .openingUrandom) := by
    simp only [step, State.goto, hasValidMac]
    split_ifs with h
    · simp [h]
    · simp [h]
  have hfirst : step s (.readTarget (.ok (min bufferSize s.text.length))) =
      some (s.goto (.closingTarget (s.text.take bufferSize))) := by
    simp only [step, hs, if_pos hread, htake]
  rw [Machine.run_cons, hfirst, Option.bind_some, Machine.run_cons, hclose]
  simp

end MozartLineage.Macaddr

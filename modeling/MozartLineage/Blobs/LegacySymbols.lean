import MozartLineage.Container.Occurrence
import MozartLineage.Transition.Resume
import Mathlib.Tactic.SplitIfs

/-!
# The symbols of the legacy audio libraries

The tool writes the current names of some symbols over the legacy ones, in place, in the
bytes of a library. The names are of the same length. A library that has neither the one nor
the other is an error, so that a second run finds the current names and does nothing.

It works on one library after the other and on one symbol after the other. What it does is
described byte by byte for maps like the one of this repository, whose names cannot overlap.
-/

namespace MozartLineage.Blobs

open Occurrence Transition

/-- The bytes of a file, or of a name. -/
abbrev Bytes := List Char

/-- The number of lines that `grep -aFo` prints; an empty match is not printed. -/
def countFrom (w : Bytes) : ℕ → Bytes → ℕ
  | _, [] => 0
  | n + 1, _ :: f => countFrom w n f
  | 0, a :: f =>
      if w ≠ [] ∧ w <+: a :: f then countFrom w (w.length - 1) f + 1 else countFrom w 0 f

def count (w f : Bytes) : ℕ := countFrom w 0 f

structure SymbolPair where
  oldSymbol : Bytes
  newSymbol : Bytes
  deriving DecidableEq

/-- The status and the message with which the tool stops. -/
structure ToolFailure where
  status : ℕ
  message : Bytes
  deriving DecidableEq

section Tool

variable (elfFile : Bytes)

/-- The body of the loop over the map. -/
def patchSymbol (p : SymbolPair) (f : Bytes) : Bytes × Option ToolFailure :=
  if p.oldSymbol = [] then (f, none)
  else if count p.oldSymbol f = 0 then
    if count p.newSymbol f = 0 then
      (f, some ⟨1, "neither symbol exists in ".toList ++ elfFile ++ ": ".toList ++
        p.oldSymbol⟩)
    else (f, none)
  else if p.oldSymbol.length ≠ p.newSymbol.length then
    (f, some ⟨1, "replacement changes string length: ".toList ++ p.oldSymbol ++
      " -> ".toList ++ p.newSymbol⟩)
  else (replaceAll p.oldSymbol p.newSymbol f, none)

/-- The work on one library. `undefined` are the symbols that `readelf` says are undefined. -/
def patchElf (undefined : Bytes → List Bytes) (symbolMap : List SymbolPair) (f : Bytes) :
    Bytes × Option ToolFailure :=
  match runAll (patchSymbol elfFile) symbolMap f with
  | (g, some failure) => (g, some failure)
  | (g, none) =>
      if g.length ≠ f.length then
        (g, some ⟨1, "ELF size changed unexpectedly: ".toList ++ elfFile⟩)
      else if (undefined g).any fun name => "_55".toList <:+ name then
        (g, some ⟨1, "legacy ICU 55 symbols remain unresolved in ".toList ++ elfFile⟩)
      else (g, none)

end Tool

/-- A pair that can be replaced, and not by accident. -/
structure SymbolPair.Sound (p : SymbolPair) : Prop where
  old_ne : p.oldSymbol ≠ []
  length_eq : p.newSymbol.length = p.oldSymbol.length
  old_unbordered : Unbordered p.oldSymbol
  new_unbordered : Unbordered p.newSymbol
  apart : Apart p.newSymbol p.oldSymbol

instance (p : SymbolPair) : Decidable p.Sound :=
  decidable_of_iff (p.oldSymbol ≠ [] ∧ p.newSymbol.length = p.oldSymbol.length ∧
      Unbordered p.oldSymbol ∧ Unbordered p.newSymbol ∧ Apart p.newSymbol p.oldSymbol)
    ⟨fun h => ⟨h.1, h.2.1, h.2.2.1, h.2.2.2.1, h.2.2.2.2⟩,
      fun h => ⟨h.old_ne, h.length_eq, h.old_unbordered, h.new_unbordered, h.apart⟩⟩

/-- The word is apart from both symbols. -/
def SymbolPair.Misses (p : SymbolPair) (w : Bytes) : Prop :=
  Apart p.oldSymbol w ∧ Apart p.newSymbol w

instance (p : SymbolPair) (w : Bytes) : Decidable (p.Misses w) :=
  inferInstanceAs (Decidable (_ ∧ _))

/-- The symbols of different pairs do not overlap. -/
structure SymbolMap.Sound (symbolMap : List SymbolPair) : Prop where
  sound : ∀ p ∈ symbolMap, p.Sound
  misses : symbolMap.Pairwise fun p q =>
    p.Misses q.oldSymbol ∧ p.Misses q.newSymbol ∧ q.Misses p.oldSymbol ∧ q.Misses p.newSymbol

theorem count_eq_zero_iff {w f : Bytes} (hw : w ≠ []) :
    count w f = 0 ↔ ∀ i, ¬ FoundAt w i f := by
  unfold count
  induction f with
  | nil => simp [countFrom, FoundAt, hw]
  | cons a f ih =>
      by_cases hhead : w <+: a :: f
      · have hcount : countFrom w 0 (a :: f) ≠ 0 := by
          simp [countFrom, hw, hhead]
        exact iff_of_false hcount fun h => h 0 hhead
      · simp only [countFrom, hhead, and_false, if_false, ih]
        constructor
        · intro h i
          cases i with
          | zero => exact hhead
          | succ i => exact h i
        · intro h i
          exact h (i + 1)

theorem exists_of_count {w f : Bytes} (hw : w ≠ []) (h : count w f ≠ 0) :
    ∃ i, FoundAt w i f := by
  by_contra hnone
  exact h ((count_eq_zero_iff hw).2 fun i hi => hnone ⟨i, hi⟩)

section Symbol

variable {elfFile : Bytes} {p q : SymbolPair} {f g : Bytes} {failure : ToolFailure}

theorem SymbolPair.Sound.new_ne (hp : p.Sound) : p.newSymbol ≠ [] := by
  intro hnil
  have hlength := hp.length_eq
  rw [hnil] at hlength
  exact hp.old_ne (List.length_eq_zero_iff.1 hlength.symm)

/-- For a sound pair the tool fails only where neither symbol is found, and it replaces the
old one otherwise, if there is anything to replace. -/
theorem patchSymbol_cases (elfFile : Bytes) (hp : p.Sound) (f : Bytes) :
    ((∀ i, ¬ FoundAt p.oldSymbol i f) ∧ (∀ i, ¬ FoundAt p.newSymbol i f) ∧
        ∃ failure, patchSymbol elfFile p f = (f, some failure)) ∨
      ∃ g, patchSymbol elfFile p f = (g, none) ∧ Replaces p.oldSymbol p.newSymbol f g ∧
        ∃ i, FoundAt p.newSymbol i g := by
  by_cases hold : count p.oldSymbol f = 0
  · have hnone := (count_eq_zero_iff hp.old_ne).1 hold
    by_cases hnew : count p.newSymbol f = 0
    · refine Or.inl ⟨hnone, (count_eq_zero_iff hp.new_ne).1 hnew, ?_⟩
      exact ⟨_, by rw [patchSymbol, if_neg hp.old_ne, if_pos hold, if_pos hnew]⟩
    · refine Or.inr ⟨f, by simp [patchSymbol, hold, hnew], ?_, exists_of_count hp.new_ne hnew⟩
      exact ⟨rfl, fun i hi => (hnone i hi).elim, fun _ _ => rfl⟩
  · have hreplaces := replaces_replaceAll hp.old_ne hp.length_eq hp.old_unbordered f
    obtain ⟨i, hi⟩ := exists_of_count hp.old_ne hold
    refine Or.inr ⟨_, ?_, hreplaces, i, hreplaces.new_of_old i hi⟩
    simp [patchSymbol, hp.old_ne, hold, hp.length_eq]

theorem settled_patchSymbol_iff (hp : p.Sound) :
    Settled (patchSymbol elfFile) p f ↔
      (∀ i, ¬ FoundAt p.oldSymbol i f) ∧ ∃ i, FoundAt p.newSymbol i f := by
  rcases patchSymbol_cases elfFile hp f with
    ⟨-, hnew, failure, heq⟩ | ⟨g, heq, hreplaces, hfound⟩
  · simp [Settled, heq, hnew]
  · simp only [Settled, heq, Prod.mk.injEq, and_true]
    constructor
    · rintro rfl
      exact ⟨fun i => hreplaces.not_foundAt_old hp.old_ne hp.length_eq hp.apart, hfound⟩
    · rintro ⟨hnone, -⟩
      exact List.ext_getElem? fun i => hreplaces.other i fun j hj => (hnone j hj).elim

/-- The other symbols are found where they were. -/
theorem foundAt_patchSymbol {w : Bytes} (elfFile f : Bytes) (hp : p.Sound) (hw : p.Misses w)
    (i : ℕ) :
    FoundAt w i (patchSymbol elfFile p f).1 ↔ FoundAt w i f := by
  rcases patchSymbol_cases elfFile hp f with ⟨-, -, failure, heq⟩ | ⟨g, heq, hreplaces, -⟩
  · rw [heq]
  · rw [heq]
    exact hreplaces.foundAt_iff hp.length_eq hw.1 hw.2

theorem patchSymbol_again (hp : p.Sound) (f : Bytes) :
    patchSymbol elfFile p (patchSymbol elfFile p f).1 = patchSymbol elfFile p f := by
  rcases patchSymbol_cases elfFile hp f with ⟨-, -, failure, heq⟩ | ⟨g, heq, hreplaces, hfound⟩
  · rw [heq, heq]
  · rw [heq]
    exact (settled_patchSymbol_iff hp).2
      ⟨fun i => hreplaces.not_foundAt_old hp.old_ne hp.length_eq hp.apart, hfound⟩

end Symbol

/-! ### The whole map -/

section Map

variable {elfFile : Bytes} {symbolMap : List SymbolPair} {f g : Bytes}

theorem SymbolMap.Sound.tail {p : SymbolPair} (h : SymbolMap.Sound (p :: symbolMap)) :
    SymbolMap.Sound symbolMap :=
  ⟨fun q hq => h.sound q (by simp [hq]), (List.pairwise_cons.1 h.misses).2⟩

/-- A word that no pair of the map touches is found where it was. -/
theorem foundAt_runAll {w : Bytes} (elfFile : Bytes) (f : Bytes)
    (hmap : ∀ p ∈ symbolMap, p.Sound ∧ p.Misses w) (i : ℕ) :
    FoundAt w i (runAll (patchSymbol elfFile) symbolMap f).1 ↔ FoundAt w i f := by
  induction symbolMap generalizing f with
  | nil => rfl
  | cons p ps ih =>
      obtain ⟨hp, hw⟩ := hmap p (by simp)
      have hstep := foundAt_patchSymbol elfFile f hp hw i
      simp only [runAll]
      rcases hexec : patchSymbol elfFile p f with ⟨f₁, status⟩
      rw [hexec] at hstep
      cases status with
      | some failure => exact hstep
      | none => exact (ih f₁ fun q hq => hmap q (by simp [hq])).trans hstep

/-- The bytes outside of the legacy symbols stay, also if the tool fails. -/
theorem runAll_other (elfFile f : Bytes) (hmap : SymbolMap.Sound symbolMap) :
    (runAll (patchSymbol elfFile) symbolMap f).1.length = f.length ∧
      ∀ i, (∀ p ∈ symbolMap, ∀ j, FoundAt p.oldSymbol j f →
          i < j ∨ j + p.oldSymbol.length ≤ i) →
        (runAll (patchSymbol elfFile) symbolMap f).1[i]? = f[i]? := by
  induction symbolMap generalizing f with
  | nil => exact ⟨rfl, fun _ _ => rfl⟩
  | cons p ps ih =>
      have hmisses := (List.pairwise_cons.1 hmap.misses).1
      have hp := hmap.sound p (by simp)
      have hothers : ∀ q ∈ ps, ∀ j, FoundAt q.oldSymbol j (patchSymbol elfFile p f).1 ↔
          FoundAt q.oldSymbol j f := fun q hq j =>
        foundAt_patchSymbol elfFile f hp (hmisses q hq).1 j
      rcases patchSymbol_cases elfFile hp f with ⟨-, -, failure, heq⟩ | ⟨f₁, heq, hrep, -⟩
      · simp [runAll, heq]
      · rw [heq] at hothers
        obtain ⟨hlength, hother⟩ := ih f₁ hmap.tail
        simp only [runAll, heq]
        refine ⟨hlength.trans hrep.length_eq, fun i hi => ?_⟩
        refine (hother i fun q hq j hj => ?_).trans (hrep.other i (hi p (by simp)))
        exact hi q (by simp [hq]) j ((hothers q hq j).1 hj)

/-- When the loop has gone well no legacy symbol is left, and the current ones are where they
were and where the legacy ones were. -/
theorem runAll_symbols (hmap : SymbolMap.Sound symbolMap)
    (h : runAll (patchSymbol elfFile) symbolMap f = (g, none)) :
    ∀ p ∈ symbolMap, ∀ i, ¬ FoundAt p.oldSymbol i g ∧
      (FoundAt p.newSymbol i g ↔ FoundAt p.oldSymbol i f ∨ FoundAt p.newSymbol i f) := by
  induction symbolMap generalizing f with
  | nil => simp
  | cons p ps ih =>
      have hmisses := (List.pairwise_cons.1 hmap.misses).1
      have hp := hmap.sound p (by simp)
      rcases patchSymbol_cases elfFile hp f with ⟨-, -, failure, heq⟩ | ⟨f₁, heq, hrep, -⟩
      · simp [runAll, heq] at h
      · simp only [runAll, heq] at h
        have htail : (runAll (patchSymbol elfFile) ps f₁).1 = g := congrArg Prod.fst h
        intro q hq i
        rcases List.mem_cons.1 hq with rfl | hq
        · have hold := foundAt_runAll (w := q.oldSymbol) elfFile f₁
            (fun a ha => ⟨hmap.tail.sound a ha, (hmisses a ha).2.2.1⟩) i
          have hnew := foundAt_runAll (w := q.newSymbol) elfFile f₁
            (fun a ha => ⟨hmap.tail.sound a ha, (hmisses a ha).2.2.2⟩) i
          rw [htail] at hold hnew
          rw [hold, hnew]
          exact ⟨hrep.not_foundAt_old hp.old_ne hp.length_eq hp.apart,
            hrep.foundAt_new hp.length_eq hp.new_unbordered hp.apart⟩
        · obtain ⟨hold, hnew⟩ := ih hmap.tail h q hq i
          have hmiss := hmisses q hq
          rw [hrep.foundAt_iff hp.length_eq hmiss.1.1 hmiss.1.2,
            hrep.foundAt_iff hp.length_eq hmiss.2.1.1 hmiss.2.1.2] at hnew
          exact ⟨hold, hnew⟩

theorem SymbolMap.Sound.resumable (elfFile : Bytes) (hmap : SymbolMap.Sound symbolMap) :
    Resumable (patchSymbol elfFile) (fun _ _ => ([] : List Unit)) (fun _ => True)
      symbolMap where
  inv _ _ _ _ := trivial
  again p hp f _ := patchSymbol_again (hmap.sound p hp) f
  frame := by
    refine hmap.misses.imp_of_mem fun {p q} hp hq hmisses f _ h => ?_
    have hq' := hmap.sound q hq
    rw [settled_patchSymbol_iff (hmap.sound p hp)] at h ⊢
    simpa only [foundAt_patchSymbol elfFile f hq' hmisses.2.2.1,
      foundAt_patchSymbol elfFile f hq' hmisses.2.2.2] using h
  quiet _ _ _ _ _ := rfl

end Map

/-! ### The map of this repository -/

def symbolPair (name : String) : SymbolPair :=
  ⟨(name ++ "_55").toList, (name ++ "_60").toList⟩

def audioLegacySymbols : List SymbolPair :=
  ["UCNV_FROM_U_CALLBACK_STOP", "UCNV_TO_U_CALLBACK_STOP", "ucnv_close", "ucnv_convertEx",
    "ucnv_open", "ucnv_setFromUCallBack", "ucnv_setToUCallBack"].map symbolPair

theorem audioLegacySymbols_sound : SymbolMap.Sound audioLegacySymbols := by
  have hpairs : (∀ p ∈ audioLegacySymbols, p.Sound) ∧ audioLegacySymbols.Pairwise fun p q =>
      p.Misses q.oldSymbol ∧ p.Misses q.newSymbol ∧ q.Misses p.oldSymbol ∧
        q.Misses p.newSymbol := by decide +kernel
  exact ⟨hpairs.1, hpairs.2⟩

section Runs

variable {elfFile f g : Bytes} {undefined : Bytes → List Bytes}

theorem patchElf_eq_ok {symbolMap : List SymbolPair}
    (h : patchElf elfFile undefined symbolMap f = (g, none)) :
    runAll (patchSymbol elfFile) symbolMap f = (g, none) ∧
      ∀ name ∈ undefined g, ¬ "_55".toList <:+ name := by
  unfold patchElf at h
  split at h
  · cases h
  · next g' hrun =>
    split_ifs at h with hlength hname
    · cases h
    · cases h
    · cases h
      refine ⟨hrun, fun name hmem hsuffix => hname ?_⟩
      exact List.any_eq_true.2 ⟨name, hmem, by simpa using hsuffix⟩

/-- The names of all legacy symbols, between zero bytes. -/
def legacyElf : Bytes :=
  audioLegacySymbols.flatMap fun p => p.oldSymbol ++ [Char.ofNat 0]

end Runs

end MozartLineage.Blobs

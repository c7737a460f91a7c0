import Mathlib.Algebra.GroupWithZero.Nat
import Mathlib.Algebra.Ring.Int.Defs
import Mathlib.Data.List.Infix
import Mathlib.Data.List.TakeWhile
import Mathlib.Data.Nat.Basic
import Mathlib.Tactic.Common

/-!
# Reading text as the C library does

Lines of a bounded size, words of a bounded width, and numbers, in the C locale. Beside the
functions that read stands `decimal`, which prints; what is printed is read back, whatever
comes after it.
-/

namespace Scan

abbrev Text := List UInt8

def isSpace (c : UInt8) : Bool := c = 32 ∨ 9 ≤ c ∧ c ≤ 13

def isDigit (c : UInt8) : Bool := 48 ≤ c ∧ c ≤ 57

def newline : UInt8 := 10

/-- The string that begins here: what comes before the first null byte. -/
def cString (t : Text) : Text := t.takeWhile (· ≠ 0)

/-! ### Lines -/

/-- What calls of `fgets` read one after another, each at most `size` bytes and nothing after
a newline. `line` is what the current call has read. -/
def linesFrom (size : ℕ) (line : Text) : Text → List Text
  | [] => if line = [] then [] else [line]
  | c :: t =>
      if c = newline ∨ (line ++ [c]).length = size then (line ++ [c]) :: linesFrom size [] t
      else linesFrom size (line ++ [c]) t

def lines (size : ℕ) (t : Text) : List Text := linesFrom size [] t

/-! ### Words and numbers -/

/-- `%s` with a width. -/
def word (width : ℕ) (t : Text) : Option (Text × Text) :=
  let start := t.dropWhile isSpace
  let w := (start.take width).takeWhile fun c => ¬ isSpace c
  if w = [] then none else some (w, start.drop w.length)

/-- The number that digits spell. -/
def value (digits : Text) : ℕ := digits.foldl (fun n c => 10 * n + (c.toNat - 48)) 0

/-- An optional sign: whether it is a minus, and the rest. -/
def sign : Text → Bool × Text
  | [] => (false, [])
  | c :: t => if c = 45 then (true, t) else if c = 43 then (false, t) else (false, c :: t)

/-- `strtoul` for numbers of `bits` bits, without the space before it: the number and the
rest, if there are digits. A number that is too large becomes the largest one; a minus is
taken modulo the size. -/
def unsigned (bits : ℕ) (t : Text) : Option (ℕ × Text) :=
  let (negative, start) := sign t
  let digits := start.takeWhile isDigit
  if digits = [] then none
  else
    let n := value digits
    let result :=
      if 2 ^ bits ≤ n then 2 ^ bits - 1
      else if negative then (2 ^ bits - n) % 2 ^ bits
      else n
    some (result, start.dropWhile isDigit)

/-- `%llu` after white space, `count` times. -/
def numbers : ℕ → Text → Option (List ℕ)
  | 0, _ => some []
  | count + 1, t =>
      (unsigned 64 (t.dropWhile isSpace)).bind fun (n, rest) =>
        (numbers count rest).map (n :: ·)

/-- `%d` after white space: a number of 32 bits. -/
def signed (t : Text) : Option ℤ :=
  let (negative, start) := sign (t.dropWhile isSpace)
  let digits := start.takeWhile isDigit
  if digits = [] then none
  else
    let n : ℤ := if negative then -(value digits) else value digits
    -- the library reads 64 bits and keeps the lower half
    some (Int.bmod (max (-2 ^ 63) (min n (2 ^ 63 - 1))) (2 ^ 32))

/-! ### Printing -/

def digit (n : ℕ) : UInt8 := UInt8.ofNat (48 + n)

def decimal (n : ℕ) : Text := if n < 10 then [digit n] else decimal (n / 10) ++ [digit (n % 10)]

/-- Numbers, each after a space. -/
def fields (ns : List ℕ) : Text := ns.flatMap fun n => 32 :: decimal n

variable {t rest digits w : Text} {c : UInt8} {n size width : ℕ}

theorem isDigit_digit : ∀ n < 10, isDigit (digit n) = true := by decide

theorem toNat_digit : ∀ n < 10, (digit n).toNat - 48 = n := by decide

theorem isDigit_of_mem_decimal (n : ℕ) : ∀ c ∈ decimal n, isDigit c = true := by
  induction n using Nat.strongRecOn with
  | ind n ih =>
      intro c hc
      rw [decimal] at hc
      split_ifs at hc with hn
      · rw [List.mem_singleton.1 hc]
        exact isDigit_digit n hn
      · rcases List.mem_append.1 hc with hc | hc
        · exact ih (n / 10) (by omega) c hc
        · rw [List.mem_singleton.1 hc]
          exact isDigit_digit _ (Nat.mod_lt _ (by decide))

theorem decimal_ne_nil (n : ℕ) : decimal n ≠ [] := by
  rw [decimal]
  split_ifs <;> simp

theorem length_decimal_le {k : ℕ} (hn : n < 10 ^ (k + 1)) : (decimal n).length ≤ k + 1 := by
  induction k generalizing n with
  | zero =>
      rw [decimal, if_pos (by simpa using hn)]
      rfl
  | succ k ih =>
      rw [decimal]
      split_ifs
      · simp
      · have hdiv : n / 10 < 10 ^ (k + 1) := by
          rw [Nat.div_lt_iff_lt_mul (by decide), ← Nat.pow_succ]
          exact hn
        simpa using ih hdiv

theorem value_append (digits : Text) (c : UInt8) :
    value (digits ++ [c]) = 10 * value digits + (c.toNat - 48) := by
  simp [value]

theorem value_decimal (n : ℕ) : value (decimal n) = n := by
  induction n using Nat.strongRecOn with
  | ind n ih =>
      rw [decimal]
      split_ifs with hn
      · simpa [value] using toNat_digit n hn
      · rw [value_append, ih (n / 10) (by omega), toNat_digit _ (Nat.mod_lt _ (by decide))]
        omega

/-- The digits end where something else begins. -/
theorem takeWhile_decimal (h : ∀ c ∈ rest.head?, isDigit c = false) :
    (decimal n ++ rest).takeWhile isDigit = decimal n ∧
      (decimal n ++ rest).dropWhile isDigit = rest := by
  have hdigits := isDigit_of_mem_decimal n
  constructor
  · rw [List.takeWhile_append_of_pos hdigits]
    cases rest with
    | nil => simp
    | cons c rest => simp [h c rfl]
  · rw [List.dropWhile_append_of_pos hdigits]
    cases rest with
    | nil => rfl
    | cons c rest => simp [h c rfl]

/-- What is printed has no sign. -/
theorem sign_decimal (n : ℕ) (rest : Text) :
    sign (decimal n ++ rest) = (false, decimal n ++ rest) := by
  cases h : decimal n with
  | nil => exact absurd h (decimal_ne_nil n)
  | cons c digits =>
      have hc : isDigit c = true := isDigit_of_mem_decimal n c (by simp [h])
      have hminus : c ≠ 45 := by
        rintro rfl
        exact absurd hc (by decide)
      have hplus : c ≠ 43 := by
        rintro rfl
        exact absurd hc (by decide)
      simp [sign, hminus, hplus]

theorem unsigned_decimal {bits : ℕ} (hn : n < 2 ^ bits)
    (h : ∀ c ∈ rest.head?, isDigit c = false) :
    unsigned bits (decimal n ++ rest) = some (n, rest) := by
  obtain ⟨htake, hdrop⟩ := takeWhile_decimal (n := n) h
  rw [unsigned, sign_decimal]
  simp [htake, hdrop, decimal_ne_nil, value_decimal, Nat.not_le.2 hn]

theorem isSpace_of_isDigit (h : isDigit c = true) : isSpace c = false := by
  simp only [isDigit, isSpace, decide_eq_true_eq, decide_eq_false_iff_not] at h ⊢
  simp only [UInt8.le_iff_toNat_le, ← UInt8.toNat_inj, UInt8.reduceToNat] at h ⊢
  omega

/-- Digits and spaces are all there is in the fields. -/
theorem isDigit_of_mem_fields {ns : List ℕ} (h : c ∈ fields ns) : c = 32 ∨ isDigit c = true := by
  obtain ⟨n, -, hc⟩ := List.mem_flatMap.1 h
  rcases List.mem_cons.1 hc with rfl | hc
  · exact Or.inl rfl
  · exact Or.inr (isDigit_of_mem_decimal n c hc)

theorem length_fields_le {ns : List ℕ} (h : ∀ n ∈ ns, n < 2 ^ 64) :
    (fields ns).length ≤ 21 * ns.length := by
  induction ns with
  | nil => simp [fields]
  | cons n ns ih =>
      have hn : n < 10 ^ (19 + 1) := (h n (by simp)).trans (by decide)
      have hlength := length_decimal_le hn
      have hrest := ih fun m hm => h m (by simp [hm])
      simp only [fields, List.flatMap_cons, List.length_append, List.length_cons] at hrest ⊢
      omega

theorem dropWhile_space_decimal (n : ℕ) (rest : Text) :
    (32 :: (decimal n ++ rest)).dropWhile isSpace = decimal n ++ rest := by
  cases h : decimal n with
  | nil => exact absurd h (decimal_ne_nil n)
  | cons c digits =>
      have hc : isDigit c = true := isDigit_of_mem_decimal n c (by simp [h])
      have hspace : isSpace 32 = true := by decide
      simp [hspace, isSpace_of_isDigit hc]

theorem head?_fields_append (ns : List ℕ) (h : ∀ c ∈ rest.head?, isDigit c = false) :
    ∀ c ∈ (fields ns ++ rest).head?, isDigit c = false := by
  cases ns with
  | nil => simpa [fields] using h
  | cons n ns =>
      rintro c hc
      obtain rfl : c = 32 := by simpa [fields, eq_comm] using hc
      decide

/-- The first numbers of what is printed. -/
theorem numbers_fields {ns : List ℕ} {count : ℕ} (hcount : count ≤ ns.length)
    (hns : ∀ n ∈ ns, n < 2 ^ 64) (h : ∀ c ∈ rest.head?, isDigit c = false) :
    numbers count (fields ns ++ rest) = some (ns.take count) := by
  induction count generalizing ns with
  | zero => rfl
  | succ count ih =>
      cases ns with
      | nil => simp at hcount
      | cons n ns =>
          have hsplit : fields (n :: ns) ++ rest = 32 :: (decimal n ++ (fields ns ++ rest)) := by
            simp [fields]
          have hread := unsigned_decimal (hns n (by simp)) (head?_fields_append ns h)
          have hrest := ih (by simpa using hcount) fun m hm => hns m (by simp [hm])
          rw [hsplit, numbers, dropWhile_space_decimal, hread]
          simp [hrest]

/-- A word is read up to the width, and ends where there is space. -/
theorem word_append {width : ℕ} (hne : w ≠ []) (hspace : ∀ c ∈ w, isSpace c = false) (hwidth : 0 < width)
    (h : ∀ c ∈ rest.head?, isSpace c = true) :
    word width (w ++ rest) = some (w.take width, w.drop width ++ rest) := by
  have hstart : (w ++ rest).dropWhile isSpace = w ++ rest := by
    cases w with
    | nil => exact absurd rfl hne
    | cons c w => simp [hspace c (by simp)]
  have htake : ((w ++ rest).take width).takeWhile (fun c => ¬ isSpace c) = w.take width := by
    rw [List.take_append, List.takeWhile_append_of_pos]
    · suffices hend : (rest.take (width - w.length)).takeWhile (fun c => ¬ isSpace c) = [] by
        rw [hend, List.append_nil]
      cases rest with
      | nil => simp
      | cons c rest => cases width - w.length <;> simp [h c rfl]
    · intro c hc
      simpa using hspace c (List.mem_of_mem_take hc)
  have hnonempty : w.take width ≠ [] := by
    simp [hne, hwidth.ne']
  unfold word
  dsimp only
  rw [hstart, htake, if_neg hnonempty]
  congr 2
  rw [List.length_take]
  rcases Nat.le_total width w.length with hle | hle
  · rw [Nat.min_eq_left hle, List.drop_append_of_le_length hle]
  · rw [Nat.min_eq_right hle, List.drop_left, List.drop_eq_nil_of_le hle, List.nil_append]

theorem mem_of_mem_word (h : word width t = some (w, rest)) (hc : c ∈ w) : c ∈ t := by
  unfold word at h
  dsimp only at h
  split_ifs at h
  cases h
  exact (List.dropWhile_sublist _).subset
    (List.mem_of_mem_take ((List.takeWhile_prefix _).subset hc))

theorem cString_of_forall (h : ∀ c ∈ t, c ≠ 0) : cString t = t := by
  rw [cString, List.takeWhile_eq_self_iff]
  simpa using h

/-! ### Lines -/

theorem linesFrom_line {line : Text} (read rest : Text) (hline : newline ∉ line)
    (hlength : (read ++ line).length < size) :
    linesFrom size read (line ++ newline :: rest) =
      (read ++ line ++ [newline]) :: lines size rest := by
  induction line generalizing read with
  | nil => simp [linesFrom, lines]
  | cons c line ih =>
      have hc : ¬ (c = newline ∨ (read ++ [c]).length = size) := by
        rintro (rfl | heq)
        · exact hline (by simp)
        · simp only [List.length_append, List.length_cons, List.length_nil] at heq hlength
          omega
      have hrest := ih (read ++ [c]) (fun h => hline (by simp [h])) (by simpa using hlength)
      rw [List.cons_append, linesFrom, if_neg hc, hrest]
      simp

/-- A line that is short enough is read as it is. -/
theorem lines_line {line : Text} (hline : newline ∉ line) (hlength : line.length < size) :
    lines size (line ++ newline :: rest) = (line ++ [newline]) :: lines size rest := by
  have hread := linesFrom_line [] rest hline (by simpa using hlength)
  rwa [List.nil_append] at hread

theorem linesFrom_chunks {line : Text} (read rest : Text) (hline : newline ∉ line) (hread : read.length < size) :
    ∃ first others, linesFrom size read (line ++ newline :: rest) =
        first :: (others ++ lines size rest) ∧
      first = (read ++ line ++ [newline]).take size ∧
      ∀ other ∈ others, ∀ c ∈ other, c ∈ (read ++ line ++ [newline]).drop size := by
  induction line generalizing read with
  | nil =>
      have hlength : (read ++ [newline]).length ≤ size := by
        rw [List.length_append]
        exact hread
      refine ⟨read ++ [newline], [], by simp [linesFrom, lines], ?_, by simp⟩
      rw [List.append_nil, List.take_of_length_le hlength]
  | cons c line ih =>
      have hc : c ≠ newline := by
        rintro rfl
        exact hline (by simp)
      have hline' : newline ∉ line := fun h => hline (by simp [h])
      have hshift : read ++ c :: line ++ [newline] = (read ++ [c]) ++ line ++ [newline] := by simp
      rw [List.cons_append, linesFrom, hshift]
      by_cases hfull : (read ++ [c]).length = size
      · -- the buffer is full: what is left begins a new one
        have hempty : ([] : Text).length < size := hread.trans_le' (Nat.zero_le _)
        obtain ⟨first, others, heq, hfirst, hothers⟩ := ih [] hline' hempty
        rw [List.nil_append] at hfirst hothers
        have hdrop : ((read ++ [c]) ++ line ++ [newline]).drop size = line ++ [newline] := by
          rw [← hfull, List.append_assoc, List.drop_left]
        refine ⟨read ++ [c], first :: others, ?_, ?_, ?_⟩
        · rw [if_pos (Or.inr hfull)]
          exact congrArg _ heq
        · rw [← hfull, List.append_assoc, List.take_left]
        · rw [hdrop]
          intro other hother d hd
          rcases List.mem_cons.1 hother with rfl | hother
          · rw [hfirst] at hd
            exact List.mem_of_mem_take hd
          · exact List.mem_of_mem_drop (hothers other hother d hd)
      · have hlength : (read ++ [c]).length < size := by
          rw [List.length_append] at hfull ⊢
          exact lt_of_le_of_ne hread hfull
        obtain ⟨first, others, heq, hfirst, hothers⟩ := ih (read ++ [c]) hline' hlength
        refine ⟨first, others, ?_, hfirst, hothers⟩
        rw [if_neg (not_or.2 ⟨hc, hfull⟩), heq]

/-- A line of any length is read in pieces. -/
theorem lines_chunks {line : Text} (rest : Text) (hline : newline ∉ line) (hsize : 0 < size) :
    ∃ first others, lines size (line ++ newline :: rest) = first :: (others ++ lines size rest) ∧
      first = (line ++ [newline]).take size ∧
      ∀ other ∈ others, ∀ c ∈ other, c ∈ (line ++ [newline]).drop size := by
  have hread := linesFrom_chunks [] rest hline hsize
  rwa [List.nil_append] at hread

end Scan

import MozartLineage.Format.Scan
import Mathlib.Data.List.TakeDrop

/-!
# The processor usages of the thermal HAL

`getCpuUsages` reads `/proc/stat` line by line into a buffer. The lines of the processors fit
into it; the one that counts the interrupts does not, and comes in pieces that look like
lines. The table that the kernel prints is read back all the same.
-/

namespace MozartLineage.Thermal

open Scan

def cpuCount : ℕ := 8

structure CpuUsage where
  name : String
  active : ℕ
  total : ℕ
  isOnline : Bool
deriving DecidableEq

def cpuName (cpu : ℕ) : String :=
  ["cpu0", "cpu1", "cpu2", "cpu3", "cpu4", "cpu5", "cpu6", "cpu7"].getD cpu ""

/-- The bytes `cpu`. -/
def cpuPrefix : Text := [99, 112, 117]

/-- An unsigned number of 64 bits. -/
def wrap (n : ℕ) : ℕ := n % 2 ^ 64

/-- What a line says of which processor, if `sscanf` reads a word and eight numbers, and the
word is `cpu` and a number. `bits` is the size of `unsigned long`. -/
def readCpu (bits : ℕ) (line : Text) : Option (ℕ × List ℕ) :=
  match word 15 (cString line) with
  | none => none
  | some (name, rest) =>
      match numbers 8 rest with
      | none => none
      | some times =>
          if name.take 3 ≠ cpuPrefix ∨ name.drop 3 = [] then none
          else
            match unsigned bits (name.drop 3) with
            | none => none
            | some (cpu, rest) => if rest ≠ [] ∨ cpuCount ≤ cpu then none else some (cpu, times)

/-- user, nice, system, irq, softirq and steal -/
def activeTicks (times : List ℕ) : ℕ :=
  wrap (times.getD 0 0 + times.getD 1 0 + times.getD 2 0 + times.getD 5 0 + times.getD 6 0 +
    times.getD 7 0)

/-- and idle and iowait -/
def totalTicks (times : List ℕ) : ℕ :=
  wrap (activeTicks times + times.getD 3 0 + times.getD 4 0)

def CpuUsage.set (usage : CpuUsage) (ticksPerSecond : ℕ) (times : List ℕ) : CpuUsage :=
  { usage with
    active := wrap (activeTicks times * 1000) / ticksPerSecond
    total := wrap (totalTicks times * 1000) / ticksPerSecond }

def readLine (bits ticksPerSecond : ℕ) (list : List CpuUsage) (line : Text) : List CpuUsage :=
  match readCpu bits line with
  | none => list
  | some (cpu, times) => list.modify cpu fun usage => usage.set ticksPerSecond times

/-- The first processor has no file that says whether it is online. -/
def isOnline (onlineFile : ℕ → Option Text) (cpu : ℕ) : Bool :=
  if cpu = 0 then true
  else
    match onlineFile cpu with
    | none => false
    | some text => (signed text).any (· ≠ 0)

/-- The list before a line is read. -/
def cleared (onlineFile : ℕ → Option Text) : List CpuUsage :=
  (List.range cpuCount).map fun cpu => ⟨cpuName cpu, 0, 0, isOnline onlineFile cpu⟩

/-- `EINVAL` -/
def invalidArgument : ℤ := 22

/-- The number that is returned, and what is in the list then, if there is one. `stat` is the
content of `/proc/stat`, or the error of `fopen`. -/
def getCpuUsages (bits : ℕ) (ticksPerSecond : ℤ) (onlineFile : ℕ → Option Text)
    (stat : Except ℤ Text) (list : Option (List CpuUsage)) : ℤ × Option (List CpuUsage) :=
  match list with
  | none => (cpuCount, none)
  | some list =>
      if ticksPerSecond ≤ 0 then (-invalidArgument, some list)
      else
        match stat with
        | .error errno => (-errno, some (cleared onlineFile))
        | .ok text =>
            (cpuCount, some ((lines 511 text).foldl (readLine bits ticksPerSecond.toNat)
              (cleared onlineFile)))

/-! ### The table of the kernel -/

/-- The times of all processors, those of each processor that is online, and what else is
counted, by name. -/
structure Stat where
  total : List ℕ
  cpus : List (ℕ × List ℕ)
  others : List (Text × List ℕ)

def statLine (label : Text) (ns : List ℕ) : Text := label ++ fields ns ++ [newline]

/-- `/proc/stat` -/
def Stat.render (stat : Stat) : Text :=
  statLine (cpuPrefix ++ [32]) stat.total ++
    stat.cpus.flatMap (fun cpu => statLine (cpuPrefix ++ decimal cpu.1) cpu.2) ++
    stat.others.flatMap fun other => statLine other.1 other.2

/-- A time is a number of 64 bits, the number of a processor is an `int`, and there are ten
times. The other names are words that fit into the buffer and do not begin like those of the
processors. -/
structure Stat.WellFormed (stat : Stat) : Prop where
  total : stat.total.length = 10 ∧ ∀ n ∈ stat.total, n < 2 ^ 64
  cpus : ∀ cpu ∈ stat.cpus, cpu.1 < 2 ^ 31 ∧ cpu.2.length = 10 ∧ ∀ n ∈ cpu.2, n < 2 ^ 64
  others : ∀ other ∈ stat.others, other.1 ≠ [] ∧ other.1.length < 511 ∧
    (∀ c ∈ other.1, isSpace c = false ∧ c ≠ 0) ∧ other.1.take 3 ≠ cpuPrefix

/-- The last line about a processor. -/
def lastTimes (cpus : List (ℕ × List ℕ)) (cpu : ℕ) : Option (List ℕ) :=
  (cpus.reverse.find? fun p => p.1 = cpu).map Prod.snd

/-- What is reported of a processor. -/
def Stat.usage (stat : Stat) (ticksPerSecond : ℕ) (onlineFile : ℕ → Option Text) (cpu : ℕ) :
    CpuUsage :=
  let offline : CpuUsage := ⟨cpuName cpu, 0, 0, isOnline onlineFile cpu⟩
  match lastTimes stat.cpus cpu with
  | none => offline
  | some times => offline.set ticksPerSecond times

/-- The time a processor has been there, in milliseconds if a second had one tick. -/
def milliTicks (times : List ℕ) : ℕ :=
  (times.getD 0 0 + times.getD 1 0 + times.getD 2 0 + times.getD 5 0 + times.getD 6 0 +
    times.getD 7 0 + times.getD 3 0 + times.getD 4 0) * 1000

/-! ### One line -/

variable {bits cpu : ℕ} {ns : List ℕ} {name : Text} {c : UInt8}

theorem ne_zero_of_isDigit (h : isDigit c = true) : c ≠ 0 ∧ c ≠ newline := by
  constructor <;>
  · rintro rfl
    exact absurd h (by decide)

theorem mem_fields (h : c ∈ fields ns) : c ≠ 0 ∧ c ≠ newline := by
  rcases isDigit_of_mem_fields h with rfl | hdigit
  · decide
  · exact ne_zero_of_isDigit hdigit

theorem head?_fields : ∀ c ∈ (fields ns ++ [newline]).head?, isSpace c = true := by
  cases ns with
  | nil =>
      rintro c hc
      obtain rfl : c = newline := by simpa [fields, eq_comm] using hc
      decide
  | cons n ns =>
      rintro c hc
      obtain rfl : c = 32 := by simpa [fields, eq_comm] using hc
      decide

theorem mem_cpuPrefix (h : c ∈ cpuPrefix) : isSpace c = false ∧ c ≠ 0 ∧ c ≠ newline := by
  obtain rfl | rfl | rfl : c = 99 ∨ c = 112 ∨ c = 117 := by simpa [cpuPrefix] using h
  all_goals decide

theorem mem_cpuLabel (h : c ∈ cpuPrefix ++ decimal cpu) :
    isSpace c = false ∧ c ≠ 0 ∧ c ≠ newline := by
  rcases List.mem_append.1 h with h | h
  · exact mem_cpuPrefix h
  · have hdigit := isDigit_of_mem_decimal cpu c h
    exact ⟨isSpace_of_isDigit hdigit, ne_zero_of_isDigit hdigit⟩

theorem cString_statLine (hname : ∀ c ∈ name, c ≠ 0) :
    cString (statLine name ns) = statLine name ns := by
  refine cString_of_forall fun c hc => ?_
  simp only [statLine, List.mem_append, List.mem_singleton] at hc
  rcases hc with (hc | hc) | rfl
  · exact hname c hc
  · exact (mem_fields hc).1
  · decide

/-- The line of a processor. -/
theorem readCpu_cpu (hbits : 31 ≤ bits) (hcpu : cpu < 2 ^ 31) (hlength : 8 ≤ ns.length)
    (hns : ∀ n ∈ ns, n < 2 ^ 64) :
    readCpu bits (statLine (cpuPrefix ++ decimal cpu) ns) =
      if cpuCount ≤ cpu then none else some (cpu, ns.take 8) := by
  have hword : word 15 (statLine (cpuPrefix ++ decimal cpu) ns) =
      some (cpuPrefix ++ decimal cpu, fields ns ++ [newline]) := by
    have hshort : (cpuPrefix ++ decimal cpu).length ≤ 15 := by
      have := length_decimal_le (k := 9) (hcpu.trans (by decide))
      simp only [cpuPrefix, List.length_append, List.length_cons, List.length_nil]
      omega
    rw [statLine, List.append_assoc, word_append (by simp [cpuPrefix])
      (fun c hc => (mem_cpuLabel hc).1) (by decide) head?_fields, List.take_of_length_le hshort,
      List.drop_eq_nil_of_le hshort, List.nil_append]
  have hnumbers : numbers 8 (fields ns ++ [newline]) = some (ns.take 8) :=
    numbers_fields hlength hns (by rintro c ⟨⟩; decide)
  have hnumber : unsigned bits (decimal cpu ++ []) = some (cpu, []) :=
    unsigned_decimal (hcpu.trans_le (Nat.pow_le_pow_right (by decide) hbits)) (by simp)
  rw [List.append_nil] at hnumber
  have hdrop : (cpuPrefix ++ decimal cpu).drop 3 = decimal cpu := rfl
  have htake : (cpuPrefix ++ decimal cpu).take 3 = cpuPrefix := rfl
  rw [readCpu, cString_statLine fun c hc => (mem_cpuLabel hc).2.1, hword]
  simp only [hnumbers, hdrop, htake, hnumber, decimal_ne_nil]
  simp

/-- A word that is not `cpu` and something is of no use. -/
theorem readCpu_eq_none {line rest : Text} (hword : word 15 (cString line) = some (name, rest))
    (hname : name.take 3 ≠ cpuPrefix ∨ name.drop 3 = []) : readCpu bits line = none := by
  unfold readCpu
  rw [hword]
  dsimp only
  cases numbers 8 rest with
  | none => rfl
  | some times => exact if_pos hname

theorem readCpu_total : readCpu bits (statLine (cpuPrefix ++ [32]) ns) = none := by
  have hword : word 15 (cString (statLine (cpuPrefix ++ [32]) ns)) =
      some (cpuPrefix, 32 :: (fields ns ++ [newline])) := by
    have hsplit : statLine (cpuPrefix ++ [32]) ns =
        cpuPrefix ++ (32 :: (fields ns ++ [newline])) := by
      simp [statLine]
    have hzero : ∀ c ∈ cpuPrefix ++ [32], c ≠ 0 := fun c hc => by
      rcases List.mem_append.1 hc with hc | hc
      · exact (mem_cpuPrefix hc).2.1
      · rw [List.mem_singleton.1 hc]
        decide
    rw [cString_statLine hzero, hsplit, word_append (by decide)
      (fun c hc => (mem_cpuPrefix hc).1) (by decide) (by rintro c ⟨⟩; decide)]
    rfl
  exact readCpu_eq_none hword (Or.inr rfl)

/-- What begins with another word is of no use, even if it is cut off. -/
theorem readCpu_other {line : Text} (rest : Text) (hne : name ≠ [])
    (hspace : ∀ c ∈ name, isSpace c = false) (hcpu : name.take 3 ≠ cpuPrefix)
    (hrest : ∀ c ∈ rest.head?, isSpace c = true) (hline : cString line = name ++ rest) :
    readCpu bits line = none := by
  have hword : word 15 (name ++ rest) = some (name.take 15, name.drop 15 ++ rest) :=
    word_append hne hspace (by decide) hrest
  rw [← hline] at hword
  refine readCpu_eq_none hword (Or.inl ?_)
  rwa [List.take_take]

/-- A piece of numbers is of no use. -/
theorem readCpu_piece {line : Text} (h : ∀ c ∈ line, isSpace c = true ∨ isDigit c = true) :
    readCpu bits line = none := by
  have hzero : cString line = line := cString_of_forall fun c hc => by
    rcases h c hc with hspace | hdigit
    · rintro rfl
      exact absurd hspace (by decide)
    · exact (ne_zero_of_isDigit hdigit).1
  cases hword : word 15 line with
  | none =>
      rw [readCpu, hzero, hword]
  | some p =>
      obtain ⟨w, rest⟩ := p
      rw [← hzero] at hword
      refine readCpu_eq_none hword (Or.inl fun hcpu => ?_)
      -- the word would begin with a letter
      have hmem : (99 : UInt8) ∈ w := List.mem_of_mem_take (i := 3) (by rw [hcpu]; decide)
      rw [hzero] at hword
      have hline : (99 : UInt8) ∈ line := mem_of_mem_word hword hmem
      exact absurd (h 99 hline) (by decide)

/-! ### The whole table -/

variable {ticksPerSecond : ℕ} {list : List CpuUsage} {rest : Text}

def readLines (bits ticksPerSecond : ℕ) (list : List CpuUsage) (text : Text) : List CpuUsage :=
  (lines 511 text).foldl (readLine bits ticksPerSecond) list

/-- What the times of one processor do to the list. -/
def store (ticksPerSecond : ℕ) (list : List CpuUsage) (cpu : ℕ × List ℕ) : List CpuUsage :=
  list.modify cpu.1 fun usage => usage.set ticksPerSecond cpu.2

@[simp] theorem set_take (usage : CpuUsage) (ticksPerSecond : ℕ) (times : List ℕ) :
    usage.set ticksPerSecond (times.take 8) = usage.set ticksPerSecond times := by
  simp [CpuUsage.set, activeTicks, totalTicks]

@[simp] theorem set_set (usage : CpuUsage) (ticksPerSecond : ℕ) (times times' : List ℕ) :
    (usage.set ticksPerSecond times).set ticksPerSecond times' =
      usage.set ticksPerSecond times' := rfl

theorem readLine_of_none {line : Text} (h : readCpu bits line = none) :
    readLine bits ticksPerSecond list line = list := by
  rw [readLine, h]

theorem foldl_readLine {pieces : List Text} (h : ∀ piece ∈ pieces, readCpu bits piece = none) :
    pieces.foldl (readLine bits ticksPerSecond) list = list := by
  induction pieces with
  | nil => rfl
  | cons piece pieces ih =>
      rw [List.foldl_cons, readLine_of_none (h piece (by simp))]
      exact ih fun other hother => h other (by simp [hother])

/-- A line of times fits into the buffer. -/
theorem lines_statLine (hname : newline ∉ name) (hshort : name.length ≤ 13)
    (hlength : ns.length = 10) (hns : ∀ n ∈ ns, n < 2 ^ 64) :
    lines 511 (statLine name ns ++ rest) = statLine name ns :: lines 511 rest := by
  have hline : newline ∉ name ++ fields ns := fun h => by
    rcases List.mem_append.1 h with h | h
    · exact hname h
    · exact (mem_fields h).2 rfl
  have hfits : (name ++ fields ns).length < 511 := by
    have hfields := length_fields_le hns
    rw [List.length_append]
    omega
  rw [statLine, List.append_assoc, List.singleton_append, lines_line hline hfits]

theorem readLines_cpu (hbits : 31 ≤ bits) (hlist : list.length = cpuCount) (hcpu : cpu < 2 ^ 31)
    (hlength : ns.length = 10) (hns : ∀ n ∈ ns, n < 2 ^ 64) :
    readLines bits ticksPerSecond list (statLine (cpuPrefix ++ decimal cpu) ns ++ rest) =
      readLines bits ticksPerSecond (store ticksPerSecond list (cpu, ns)) rest := by
  have hshort : (cpuPrefix ++ decimal cpu).length ≤ 13 := by
    have hid := length_decimal_le (k := 9) (hcpu.trans (by decide))
    simp only [cpuPrefix, List.length_append, List.length_cons, List.length_nil]
    omega
  have hread : readLine bits ticksPerSecond list (statLine (cpuPrefix ++ decimal cpu) ns) =
      store ticksPerSecond list (cpu, ns) := by
    rw [readLine, readCpu_cpu hbits hcpu (by omega) hns, store]
    by_cases hcount : cpuCount ≤ cpu
    · rw [if_pos hcount, List.modify_eq_self (by omega)]
    · rw [if_neg hcount]
      simp
  rw [readLines, lines_statLine (fun h => (mem_cpuLabel h).2.2 rfl) hshort hlength hns,
    List.foldl_cons, hread, readLines]

theorem readLines_cpus (hbits : 31 ≤ bits) {cpus : List (ℕ × List ℕ)}
    (hlist : list.length = cpuCount)
    (hcpus : ∀ cpu ∈ cpus, cpu.1 < 2 ^ 31 ∧ cpu.2.length = 10 ∧ ∀ n ∈ cpu.2, n < 2 ^ 64) :
    readLines bits ticksPerSecond list
        (cpus.flatMap (fun cpu => statLine (cpuPrefix ++ decimal cpu.1) cpu.2) ++ rest) =
      readLines bits ticksPerSecond (cpus.foldl (store ticksPerSecond) list) rest := by
  induction cpus generalizing list with
  | nil => rfl
  | cons cpu cpus ih =>
      obtain ⟨hcpu, hlength, hns⟩ := hcpus cpu (by simp)
      rw [List.flatMap_cons, List.append_assoc,
        readLines_cpu hbits hlist hcpu hlength hns, List.foldl_cons]
      exact ih (by simpa [store] using hlist) fun other hother => hcpus other (by simp [hother])

theorem readLines_total (htotal : ns.length = 10 ∧ ∀ n ∈ ns, n < 2 ^ 64) :
    readLines bits ticksPerSecond list (statLine (cpuPrefix ++ [32]) ns ++ rest) =
      readLines bits ticksPerSecond list rest := by
  rw [readLines, lines_statLine (by decide) (by decide) htotal.1 htotal.2, List.foldl_cons,
    readLine_of_none readCpu_total, readLines]

/-- The pieces of a line that is about something else. -/
theorem readLines_other (hne : name ≠ []) (hlength : name.length < 511)
    (hname : ∀ c ∈ name, isSpace c = false ∧ c ≠ 0) (hcpu : name.take 3 ≠ cpuPrefix) :
    readLines bits ticksPerSecond list (statLine name ns ++ rest) =
      readLines bits ticksPerSecond list rest := by
  have hline : newline ∉ name ++ fields ns := fun h => by
    rcases List.mem_append.1 h with h | h
    · exact absurd (hname _ h).1 (by decide)
    · exact (mem_fields h).2 rfl
  obtain ⟨first, others, hlines, hfirst, hothers⟩ :=
    lines_chunks rest hline (show 0 < 511 by decide)
  have hsplit : name ++ fields ns ++ [newline] = name ++ (fields ns ++ [newline]) :=
    List.append_assoc _ _ _
  rw [hsplit, List.take_append, List.take_of_length_le hlength.le] at hfirst
  rw [hsplit, List.drop_append, List.drop_eq_nil_of_le hlength.le, List.nil_append] at hothers
  have hfields : ∀ c ∈ fields ns ++ [newline], c ≠ 0 ∧ (isSpace c = true ∨ isDigit c = true) :=
    fun c hc => by
      rcases List.mem_append.1 hc with hc | hc
      · refine ⟨(mem_fields hc).1, (isDigit_of_mem_fields hc).imp_left ?_⟩
        rintro rfl
        decide
      · rw [List.mem_singleton.1 hc]
        decide
  have hskip : readCpu bits first = none := by
    refine readCpu_other ((fields ns ++ [newline]).take (511 - name.length)) hne
      (fun c hc => (hname c hc).1) hcpu ?_ ?_
    · intro c hc
      have hpos : 511 - name.length ≠ 0 := by omega
      rw [List.head?_take, if_neg hpos] at hc
      exact head?_fields c hc
    · rw [hfirst]
      refine cString_of_forall fun c hc => ?_
      rcases List.mem_append.1 hc with hc | hc
      · exact (hname c hc).2
      · exact (hfields c (List.mem_of_mem_take hc)).1
  have hpieces : others.foldl (readLine bits ticksPerSecond) list = list :=
    foldl_readLine fun piece hpiece => readCpu_piece fun c hc =>
      (hfields c (List.mem_of_mem_drop (hothers piece hpiece c hc))).2
  rw [readLines, statLine, List.append_assoc, List.singleton_append, hlines, List.foldl_cons,
    readLine_of_none hskip, List.foldl_append, hpieces, readLines]

theorem readLines_others {others : List (Text × List ℕ)}
    (hothers : ∀ other ∈ others, other.1 ≠ [] ∧ other.1.length < 511 ∧
      (∀ c ∈ other.1, isSpace c = false ∧ c ≠ 0) ∧ other.1.take 3 ≠ cpuPrefix) :
    readLines bits ticksPerSecond list (others.flatMap fun other => statLine other.1 other.2) =
      list := by
  induction others with
  | nil => rfl
  | cons other others ih =>
      obtain ⟨hne, hlength, hname, hcpu⟩ := hothers other (by simp)
      rw [List.flatMap_cons, readLines_other hne hlength hname hcpu]
      exact ih fun other' h => hothers other' (by simp [h])

/-- The last times of a processor are what stays. -/
theorem getElem?_store (cpus : List (ℕ × List ℕ)) (list : List CpuUsage) (i : ℕ) :
    (cpus.foldl (store ticksPerSecond) list)[i]? =
      list[i]?.map fun usage =>
        match lastTimes cpus i with
        | none => usage
        | some times => usage.set ticksPerSecond times := by
  induction cpus using List.reverseRecOn with
  | nil => simp [lastTimes]
  | append_singleton cpus cpu ih =>
      rw [List.foldl_append, List.foldl_cons, List.foldl_nil, store, List.getElem?_modify, ih]
      by_cases hi : cpu.1 = i
      · have hlast : lastTimes (cpus ++ [cpu]) i = some cpu.2 := by simp [lastTimes, hi]
        rw [hlast]
        cases lastTimes cpus i <;> simp [hi, Function.comp_def]
      · have hlast : lastTimes (cpus ++ [cpu]) i = lastTimes cpus i := by simp [lastTimes, hi]
        rw [hlast]
        simp [hi]

/-- Without an overflow a processor is not active for longer than it is there. -/
theorem set_active_le {usage : CpuUsage} {times : List ℕ} (h : milliTicks times < 2 ^ 64) :
    (usage.set ticksPerSecond times).active ≤ (usage.set ticksPerSecond times).total := by
  have hwrap : ∀ n, n < 2 ^ 64 → wrap n = n := fun n hn => Nat.mod_eq_of_lt hn
  unfold milliTicks at h
  have hactive : activeTicks times = times.getD 0 0 + times.getD 1 0 + times.getD 2 0 +
      times.getD 5 0 + times.getD 6 0 + times.getD 7 0 := hwrap _ (by omega)
  have htotal : totalTicks times = activeTicks times + times.getD 3 0 + times.getD 4 0 :=
    hwrap _ (by omega)
  have hle : activeTicks times ≤ totalTicks times := by
    rw [htotal, Nat.add_assoc]
    exact Nat.le_add_right _ _
  have hfits : totalTicks times * 1000 < 2 ^ 64 := by
    rwa [htotal, hactive]
  refine Nat.div_le_div_right ?_
  rw [hwrap _ hfits, hwrap _ ((Nat.mul_le_mul_right _ hle).trans_lt hfits)]
  exact Nat.mul_le_mul_right _ hle

/-- Whatever the kernel counts, and however long the other lines are, the list has the times
of the last line about each processor, and none for a processor that has no line. Where the
numbers do not overflow, no processor is active for longer than it is there. -/
theorem getCpuUsages_render (hbits : 31 ≤ bits) {ticks : ℤ} (hticks : 0 < ticks)
    (onlineFile : ℕ → Option Text) {stat : Stat} (hstat : stat.WellFormed)
    (list : List CpuUsage) :
    getCpuUsages bits ticks onlineFile (.ok stat.render) (some list) =
        (8, some ((List.range 8).map (stat.usage ticks.toNat onlineFile))) ∧
      ∀ cpu, (∀ times, lastTimes stat.cpus cpu = some times → milliTicks times < 2 ^ 64) →
        (stat.usage ticks.toNat onlineFile cpu).active ≤
          (stat.usage ticks.toNat onlineFile cpu).total := by
  constructor
  · have hread : readLines bits ticks.toNat (cleared onlineFile) stat.render =
        (List.range cpuCount).map (stat.usage ticks.toNat onlineFile) := by
      rw [Stat.render, List.append_assoc, readLines_total hstat.total,
        readLines_cpus hbits (by simp [cleared]) hstat.cpus, readLines_others hstat.others]
      refine List.ext_getElem? fun i => ?_
      rw [getElem?_store, cleared, List.getElem?_map, List.getElem?_map, Option.map_map]
      refine Option.map_congr fun cpu hcpu => ?_
      obtain ⟨-, rfl⟩ := List.getElem?_eq_some_iff.1 hcpu
      rw [List.getElem_range]
      rfl
    rw [getCpuUsages, if_neg (Int.not_le.2 hticks)]
    exact congrArg (fun list => ((8 : ℤ), some list)) hread
  · intro cpu hfits
    unfold Stat.usage
    cases htimes : lastTimes stat.cpus cpu with
    | none => exact le_rfl
    | some times => exact set_active_le (hfits times htimes)

/-- Processors 0 and 3, and the interrupts. -/
def twoCpus : Stat where
  total := [300, 0, 100, 1600, 0, 0, 0, 0, 0, 0]
  cpus := [(0, [200, 0, 100, 600, 100, 0, 0, 0, 0, 0]), (3, [100, 0, 0, 900, 0, 0, 0, 0, 0, 0])]
  others := [([105, 110, 116, 114], [7, 0, 7])]

theorem render_twoCpus :
    ((getCpuUsages 32 100 (fun _ => some [49]) (.ok twoCpus.render) (some [])).2.map
        (·.map fun usage => (usage.active, usage.total))) =
      some [(3000, 10000), (0, 0), (0, 0), (1000, 10000), (0, 0), (0, 0), (0, 0), (0, 0)] := by
  have hothers : ∀ other ∈ twoCpus.others, other.1 ≠ [] ∧ other.1.length < 511 ∧
      (∀ c ∈ other.1, isSpace c = false ∧ c ≠ 0) ∧ other.1.take 3 ≠ cpuPrefix := by
    simp [twoCpus, isSpace, cpuPrefix]
  have hread := (getCpuUsages_render (show 31 ≤ 32 by decide) (show (0 : ℤ) < 100 by decide)
    (fun _ => some [49]) (show twoCpus.WellFormed from ⟨by decide, by decide, hothers⟩) []).1
  rw [hread]
  decide

end MozartLineage.Thermal

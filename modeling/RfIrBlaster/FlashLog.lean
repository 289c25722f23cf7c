/-
A namespace of keyed values on flash: a log of writes of which a commit makes all
durable, and of which a power loss keeps what is durable and any number of the
writes after it.
-/
import Mathlib.Data.List.Induction

universe u v

/-- The writes, oldest first, `none` for an erased key; the first `committed` are durable. -/
structure FlashLog (κ : Type u) (α : Type v) where
  writes : List (κ × Option α) := []
  committed : Nat := 0

namespace FlashLog

variable {κ : Type u} {α : Type v} [DecidableEq κ]

/-- What the last write of `key` left. -/
def lastOf (key : κ) (writes : List (κ × Option α)) : Option α :=
  (writes.reverse.find? fun w => w.1 = key).bind Prod.snd

def read (log : FlashLog κ α) (key : κ) : Option α :=
  lastOf key log.writes

def write (log : FlashLog κ α) (key : κ) (value : Option α) : FlashLog κ α :=
  { log with writes := log.writes ++ [(key, value)] }

def commit (log : FlashLog κ α) : FlashLog κ α :=
  { log with committed := log.writes.length }

/-- The power fails, and `kept` of the writes since the last commit reached the flash. -/
def lose (log : FlashLog κ α) (kept : Nat) : FlashLog κ α :=
  { writes := log.writes.take (log.committed + kept)
    committed := (log.writes.take (log.committed + kept)).length }

/-- Whatever a power loss keeps, `key` reads `value`. -/
def Settled (log : FlashLog κ α) (key : κ) (value : Option α) : Prop :=
  ∀ n, log.committed ≤ n → lastOf key (log.writes.take n) = value

theorem lastOf_concat (key : κ) (writes : List (κ × Option α)) (w : κ × Option α) :
    lastOf key (writes ++ [w]) = if w.1 = key then w.2 else lastOf key writes := by
  unfold lastOf
  rw [List.reverse_concat, List.find?_cons]
  by_cases hkey : w.1 = key
  · simp [hkey]
  · simp [hkey]

@[simp]
theorem read_commit (log : FlashLog κ α) (key : κ) : log.commit.read key = log.read key :=
  rfl

theorem read_write (log : FlashLog κ α) (key : κ) (value : Option α) (k : κ) :
    (log.write key value).read k = if key = k then value else log.read k :=
  lastOf_concat k log.writes (key, value)

@[simp]
theorem read_write_self (log : FlashLog κ α) (key : κ) (value : Option α) :
    (log.write key value).read key = value := by
  rw [read_write, if_pos rfl]

theorem read_write_other {key k : κ} (h : key ≠ k) (log : FlashLog κ α) (value : Option α) :
    (log.write key value).read k = log.read k := by
  rw [read_write, if_neg h]

theorem settled_empty (key : κ) : ({} : FlashLog κ α).Settled key none := by
  intro n _
  rw [List.take_nil]
  rfl

namespace Settled

variable {log : FlashLog κ α} {key : κ} {value : Option α}

/-- A settled key is read as such, whether or not its log was cut short. -/
theorem read (h : log.Settled key value) : log.read key = value := by
  have hall := h (max log.committed log.writes.length) (Nat.le_max_left _ _)
  rwa [List.take_of_length_le (Nat.le_max_right _ _)] at hall

theorem write_other (h : log.Settled key value) {k : κ} (hkey : k ≠ key) (v : Option α) :
    (log.write k v).Settled key value := by
  intro n hn
  by_cases hshort : n ≤ log.writes.length
  · have hfront : (log.write k v).writes.take n = log.writes.take n :=
      List.take_append_of_le_length hshort
    rw [hfront]
    exact h n hn
  · have hwhole : (log.write k v).writes.take n = log.writes ++ [(k, v)] := by
      apply List.take_of_length_le
      rw [write, List.length_append, List.length_singleton]
      omega
    rw [hwhole, lastOf_concat, if_neg hkey]
    exact h.read

theorem commit (h : log.Settled key value) : log.commit.Settled key value := by
  intro n hn
  have hwhole : log.commit.writes.take n = log.writes := List.take_of_length_le hn
  rw [hwhole]
  exact h.read

theorem lose (h : log.Settled key value) (kept : Nat) : (log.lose kept).Settled key value := by
  intro n hn
  have hwhole : (log.lose kept).writes.take n = log.writes.take (log.committed + kept) :=
    List.take_of_length_le hn
  rw [hwhole]
  exact h _ (Nat.le_add_right _ _)

end Settled

/-- A commit settles every key at what is read. -/
theorem settled_commit (log : FlashLog κ α) (key : κ) :
    log.commit.Settled key (log.read key) := by
  intro n hn
  have hwhole : log.commit.writes.take n = log.writes := List.take_of_length_le hn
  rw [hwhole]
  rfl

theorem mem_of_lastOf {key : κ} {writes : List (κ × Option α)} {v : α}
    (h : lastOf key writes = some v) : (key, some v) ∈ writes := by
  obtain ⟨w, hw, hv⟩ := Option.bind_eq_some_iff.mp h
  have hkey : w.1 = key := by simpa using List.find?_some hw
  have hmem : w ∈ writes := List.mem_reverse.mp (List.mem_of_find?_eq_some hw)
  rwa [← hkey, ← hv]

/-- What is read was written. -/
theorem mem_of_read {log : FlashLog κ α} {key : κ} {v : α} (h : log.read key = some v) :
    (key, some v) ∈ log.writes :=
  mem_of_lastOf h

/-- After a power loss everything that is left is durable. -/
theorem settled_lose (log : FlashLog κ α) (kept : Nat) (key : κ) :
    (log.lose kept).Settled key ((log.lose kept).read key) := by
  intro n hn
  have hwhole : (log.lose kept).writes.take n = log.writes.take (log.committed + kept) :=
    List.take_of_length_le hn
  rw [hwhole]
  rfl

end FlashLog

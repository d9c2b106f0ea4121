import Cadence.Foundation.Segment

/-!
# A stream answered block by block

A party that collects a stream in blocks of one size answers each block when it is complete. What it
has to answer is then a function of the stream alone, and grows at its end as the stream does. The
elements behind the last complete block are not answered.
-/

namespace Blocks

open Segment

variable {α β : Type*} {size count : Nat} {answer : List α → List β} {stream block rest : List α}

/-- The answers to the complete blocks at the front, one behind the other. -/
def answers (size : Nat) (answer : List α → List β) (stream : List α) : List β :=
  (List.range (stream.length / size)).flatMap fun i =>
    answer (between stream (size * i) (size * i + size))

theorem length_div_of_lt (hlength : stream.length = size * count) (hrest : rest.length < size) :
    (stream ++ rest).length / size = count := by
  rw [List.length_append, hlength]
  exact Nat.div_eq_of_lt_le (by rw [Nat.mul_comm]; omega) (by rw [Nat.add_mul, Nat.mul_comm]; omega)

theorem between_append_left {start stop : Nat} (hstop : stop ≤ stream.length) :
    between (stream ++ rest) start stop = between stream start stop := by
  calc between (stream ++ rest) start stop
      = ((stream ++ rest).take stop).drop start := by rw [between, List.drop_take]
    _ = (stream.take stop).drop start := by rw [List.take_append_of_le_length hstop]
    _ = between stream start stop := by rw [between, List.drop_take]

theorem between_append_right :
    between (stream ++ block) stream.length (stream.length + block.length) = block := by
  rw [between, List.drop_left, Nat.add_sub_cancel_left, List.take_length]

/-- The blocks that were complete are the same in a longer stream. -/
theorem flatMap_append (hcount : size * count ≤ stream.length) :
    (List.range count).flatMap
        (fun i => answer (between (stream ++ rest) (size * i) (size * i + size))) =
      (List.range count).flatMap fun i => answer (between stream (size * i) (size * i + size)) := by
  apply List.flatMap_congr
  intro i hi
  have hblock : size * i + size ≤ size * count := by
    rw [← Nat.mul_succ]
    exact Nat.mul_le_mul_left size (List.mem_range.mp hi)
  rw [between_append_left (Nat.le_trans hblock hcount)]

theorem answers_of_lt (hlength : stream.length = size * count) (hrest : rest.length < size) :
    answers size answer (stream ++ rest) = answers size answer stream := by
  have hcount : stream.length / size = count := by
    have hdiv : (stream ++ []).length / size = count :=
      length_div_of_lt hlength (Nat.lt_of_le_of_lt (Nat.zero_le _) hrest)
    rwa [List.append_nil] at hdiv
  rw [answers, answers, length_div_of_lt hlength hrest, hcount,
    flatMap_append (Nat.le_of_eq hlength.symm)]

theorem answers_block (hlength : stream.length = size * count) (hblock : block.length = size)
    (hsize : 0 < size) :
    answers size answer (stream ++ block) = answers size answer stream ++ answer block := by
  have hcount : stream.length / size = count := by
    rw [hlength, Nat.mul_div_cancel_left count hsize]
  have hcount' : (stream ++ block).length / size = count + 1 := by
    rw [List.length_append, hlength, hblock, ← Nat.mul_succ, Nat.mul_div_cancel_left _ hsize]
  rw [answers, answers, hcount, hcount', List.range_succ, List.flatMap_append,
    flatMap_append (Nat.le_of_eq hlength.symm), List.flatMap_singleton, ← hlength, ← hblock,
    between_append_right]

/-- What has been answered stays answered. -/
theorem answers_within : answers size answer stream <+: answers size answer (stream ++ rest) := by
  have hcount : size * (stream.length / size) ≤ stream.length := Nat.mul_div_le _ _
  have hle : stream.length / size ≤ (stream ++ rest).length / size := by
    apply Nat.div_le_div_right
    rw [List.length_append]
    exact Nat.le_add_right _ _
  obtain ⟨more, hmore⟩ := Nat.exists_eq_add_of_le hle
  rw [answers, answers, hmore, List.range_add, List.flatMap_append, flatMap_append hcount]
  exact List.prefix_append _ _

end Blocks

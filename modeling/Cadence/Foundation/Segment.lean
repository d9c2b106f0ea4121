import Mathlib.Data.List.Basic

/-!
# Segments of a list

A cursor over a buffer that never moves back has passed the segment between where it started and
where it is. Segments compose, and overwriting the list behind a segment leaves it as it is. Writing
at an offset may also reach behind the end of the list, as it does in a file.
-/

namespace Segment

variable {α : Type*} {l data : List α} {start middle stop offset : Nat}

/-- The elements from `start` on, in front of `stop`. -/
def between (l : List α) (start stop : Nat) : List α := (l.drop start).take (stop - start)

/-- `data` stored from `offset` on. -/
def overwrite (l : List α) (offset : Nat) (data : List α) : List α :=
  l.take offset ++ data ++ l.drop (offset + data.length)

@[simp] theorem between_self : between l start start = [] := by
  simp [between]

theorem length_between (hstop : stop ≤ l.length) :
    (between l start stop).length = stop - start := by
  simp only [between, List.length_take, List.length_drop]
  omega

theorem take_length_take_add {count more : Nat} :
    l.take ((l.take count).length + more) = l.take count ++ (l.drop count).take more := by
  have hsplit := @List.take_length_add_append _ (l.take count) (l.drop count) more
  rwa [List.take_append_drop] at hsplit

theorem take_between {count : Nat} (hcount : start + count ≤ stop) :
    (between l start stop).take count = between l start (start + count) := by
  rw [between, between, List.take_take, Nat.add_sub_cancel_left, Nat.min_eq_left (by omega)]

theorem drop_between {count : Nat} :
    (between l start stop).drop count = between l (start + count) stop := by
  rw [between, between, List.drop_take, List.drop_drop, Nat.sub_sub]

theorem between_add {count : Nat} :
    between l start (start + count) = (l.drop start).take count := by
  rw [between, Nat.add_sub_cancel_left]

theorem between_append (hstart : start ≤ middle) (hmiddle : middle ≤ stop) :
    between l start middle ++ between l middle stop = between l start stop := by
  have hsplit : stop - start = (middle - start) + (stop - middle) := by omega
  have hdrop : l.drop middle = (l.drop start).drop (middle - start) := by
    rw [List.drop_drop]
    congr 1
    omega
  rw [between, between, between, hsplit, List.take_add, hdrop]

theorem length_overwrite (hfits : offset + data.length ≤ l.length) :
    (overwrite l offset data).length = l.length := by
  simp only [overwrite, List.length_append, List.length_take, List.length_drop]
  omega

theorem between_overwrite_take {count : Nat} (hfits : offset + data.length ≤ l.length)
    (hcount : count ≤ data.length) :
    between (overwrite l offset data) offset (offset + count) = data.take count := by
  have hfront : (l.take offset).length = offset := by
    rw [List.length_take]
    omega
  rw [between, overwrite, List.append_assoc, List.drop_left' hfront, Nat.add_sub_cancel_left,
    List.take_append_of_le_length hcount]

theorem between_overwrite_self (hfits : offset + data.length ≤ l.length) :
    between (overwrite l offset data) offset (offset + data.length) = data := by
  rw [between_overwrite_take hfits (Nat.le_refl _), List.take_length]

theorem between_overwrite_of_le (hstop : stop ≤ offset) (hoffset : offset ≤ l.length) :
    between (overwrite l offset data) start stop = between l start stop := by
  have hfront : stop ≤ (l.take offset).length := by
    rw [List.length_take]
    omega
  have htake : (overwrite l offset data).take stop = l.take stop := by
    rw [overwrite, List.append_assoc, List.take_append_of_le_length hfront, List.take_take,
      Nat.min_eq_left hstop]
  have hswap (m : List α) : between m start stop = (m.take stop).drop start := by
    rw [between, List.drop_take]
  rw [hswap, hswap, htake]

theorem getElem?_overwrite_of_lt {i : Nat} (hi : i < offset) (hoffset : offset ≤ l.length) :
    (overwrite l offset data)[i]? = l[i]? := by
  have hfront : i < (l.take offset).length := by
    rw [List.length_take]
    omega
  rw [overwrite, List.append_assoc, List.getElem?_append_left hfront, List.getElem?_take_of_lt hi]

theorem getElem?_overwrite_of_le {i : Nat} (hi : offset + data.length ≤ i)
    (hoffset : offset ≤ l.length) : (overwrite l offset data)[i]? = l[i]? := by
  have hfront : (l.take offset ++ data).length = offset + data.length := by
    rw [List.length_append, List.length_take, Nat.min_eq_left hoffset]
  have hbehind : (l.take offset ++ data).length ≤ i := by omega
  rw [overwrite, List.getElem?_append_right hbehind, hfront, List.getElem?_drop,
    Nat.add_sub_cancel' hi]

theorem overwrite_overwrite {front back : List α} (hoffset : offset ≤ l.length) :
    overwrite (overwrite l offset front) (offset + front.length) back =
      overwrite l offset (front ++ back) := by
  have hfront : (l.take offset ++ front).length = offset + front.length := by
    rw [List.length_append, List.length_take, Nat.min_eq_left hoffset]
  have htake : (overwrite l offset front).take (offset + front.length) = l.take offset ++ front :=
    List.take_left' hfront
  have hdrop : (overwrite l offset front).drop (offset + front.length + back.length) =
      l.drop (offset + (front ++ back).length) := by
    rw [overwrite, ← List.drop_drop, List.drop_left' hfront, List.drop_drop, List.length_append,
      Nat.add_assoc]
  calc overwrite (overwrite l offset front) (offset + front.length) back
      = (overwrite l offset front).take (offset + front.length) ++ back ++
          (overwrite l offset front).drop (offset + front.length + back.length) := rfl
    _ = overwrite l offset (front ++ back) := by
        rw [htake, hdrop, overwrite, List.append_assoc (l.take offset)]

/-! ### Writing behind the end -/

variable {fill : α} {i : Nat}

def padded (fill : α) (l : List α) (length : Nat) : List α :=
  l ++ List.replicate (length - l.length) fill

/-- `data` written from `offset` on. A gap in front of it is filled, and no data changes nothing. -/
def writeAt (fill : α) (l : List α) (offset : Nat) (data : List α) : List α :=
  if data.length = 0 then l else overwrite (padded fill l offset) offset data

theorem length_padded : (padded fill l offset).length = max l.length offset := by
  rw [padded, List.length_append, List.length_replicate]
  omega

theorem padded_of_le (hoffset : offset ≤ l.length) : padded fill l offset = l := by
  rw [padded, Nat.sub_eq_zero_of_le hoffset, List.replicate_zero, List.append_nil]

@[simp] theorem writeAt_nil : writeAt fill l offset [] = l := rfl

theorem writeAt_of_pos (hdata : 0 < data.length) :
    writeAt fill l offset data = overwrite (padded fill l offset) offset data :=
  if_neg (Nat.ne_of_gt hdata)

theorem length_writeAt (hdata : 0 < data.length) :
    (writeAt fill l offset data).length = max l.length (offset + data.length) := by
  rw [writeAt_of_pos hdata, overwrite, List.length_append, List.length_append, List.length_take,
    List.length_drop, length_padded]
  omega

theorem getElem?_writeAt_of_mem (hoffset : offset ≤ i) (hi : i < offset + data.length) :
    (writeAt fill l offset data)[i]? = data[i - offset]? := by
  have hfront : ((padded fill l offset).take offset).length = offset := by
    rw [List.length_take, length_padded]
    omega
  have hinside : i - offset < data.length := by omega
  rw [writeAt_of_pos (by omega), overwrite, List.append_assoc,
    List.getElem?_append_right (hfront.symm ▸ hoffset), hfront, List.getElem?_append_left hinside]

theorem getElem?_writeAt_of_not_mem (hi : i < l.length)
    (houtside : i < offset ∨ offset + data.length ≤ i) :
    (writeAt fill l offset data)[i]? = l[i]? := by
  by_cases hdata : data.length = 0
  · rw [writeAt, if_pos hdata]
  · have hroom : offset ≤ (padded fill l offset).length := by
      rw [length_padded]
      omega
    have hpadded : (padded fill l offset)[i]? = l[i]? := List.getElem?_append_left hi
    rw [writeAt, if_neg hdata, ← hpadded]
    cases houtside with
    | inl hlt => exact getElem?_overwrite_of_lt hlt hroom
    | inr hle => exact getElem?_overwrite_of_le hle hroom

theorem writeAt_append {front back : List α} :
    writeAt fill (writeAt fill l offset front) (offset + front.length) back =
      writeAt fill l offset (front ++ back) := by
  rcases Nat.eq_zero_or_pos front.length with hfront | hfront
  · obtain rfl := List.length_eq_zero_iff.mp hfront
    rfl
  rcases Nat.eq_zero_or_pos back.length with hback | hback
  · obtain rfl := List.length_eq_zero_iff.mp hback
    rw [writeAt_nil, List.append_nil]
  have hreaches : offset + front.length ≤ (writeAt fill l offset front).length := by
    rw [length_writeAt hfront]
    omega
  have hroom : offset ≤ (padded fill l offset).length := by
    rw [length_padded]
    omega
  rw [writeAt_of_pos hback, padded_of_le hreaches, writeAt_of_pos hfront,
    overwrite_overwrite hroom, writeAt_of_pos (by rw [List.length_append]; omega)]

end Segment

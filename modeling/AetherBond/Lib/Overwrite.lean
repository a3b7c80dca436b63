import AetherBond.Lib.Bytes

set_option autoImplicit false

/-! # Writing into a file

`overwrite` is a write at an offset of a file, zero filled if it is shorter. A file is put
together from pieces of a target: a write of such a piece leaves every byte as it was or makes
it the target's (`overwrite_agrees`), so bytes that were right stay right, whatever the order of
the writes and however they overlap.
-/

namespace AetherBond.Lib

/-- `f.seek(pos)` and `f.write(data)`. -/
def overwrite (file : Bytes) (pos : Nat) (data : Bytes) : Bytes :=
  -- an empty write does not extend the file
  if data = [] then file
  else file.take pos ++ List.replicate (pos - file.length) 0 ++ data
    ++ file.drop (pos + data.length)

variable {target file data : Bytes} {pos k : Nat}

/-- A write inside the file keeps its length. -/
theorem length_overwrite (h : pos + data.length ≤ file.length) :
    (overwrite file pos data).length = file.length := by
  unfold overwrite
  split
  · rfl
  · simp only [List.length_append, List.length_take, List.length_replicate, List.length_drop]
    omega

theorem getElem?_overwrite (h : pos + data.length ≤ file.length) (k : Nat) :
    (overwrite file pos data)[k]?
      = if pos ≤ k ∧ k < pos + data.length then data[k - pos]? else file[k]? := by
  unfold overwrite
  split
  · next hnil =>
      rw [hnil, List.length_nil, if_neg (by omega)]
  · have hzero : pos - file.length = 0 := by omega
    have hlen : (file.take pos).length = pos := List.length_take_of_le (by omega)
    rw [hzero, List.replicate_zero, List.append_nil, List.append_assoc]
    by_cases hbefore : k < pos
    · rw [List.getElem?_append_left (by omega), List.getElem?_take_of_lt hbefore,
        if_neg (by omega)]
    rw [List.getElem?_append_right (by omega), hlen]
    by_cases hin : k < pos + data.length
    · rw [List.getElem?_append_left (by omega), if_pos (by omega)]
    · rw [List.getElem?_append_right (by omega), List.getElem?_drop, if_neg (by omega)]
      congr 1
      omega

/-- **A piece of the target**: where it is written the file agrees with the target, and
elsewhere nothing changes. -/
theorem overwrite_agrees (hlen : file.length = target.length)
    (hpiece : data <+: target.drop pos) :
    (overwrite file pos data).length = target.length ∧
      ∀ k, (overwrite file pos data)[k]?
        = if pos ≤ k ∧ k < pos + data.length then target[k]? else file[k]? := by
  by_cases hnil : data = []
  · subst hnil
    refine ⟨hlen, fun k => ?_⟩
    rw [List.length_nil, if_neg (by omega)]
    rfl
  have hle : data.length ≤ target.length - pos := by
    have := hpiece.length_le
    rwa [List.length_drop] at this
  have hpos : 0 < data.length := List.length_pos_iff.mpr hnil
  have hfits : pos + data.length ≤ file.length := by omega
  refine ⟨(length_overwrite hfits).trans hlen, fun k => ?_⟩
  rw [getElem?_overwrite hfits]
  split
  · next hk =>
      have hin : k - pos < data.length := by omega
      calc data[k - pos]? = some data[k - pos] := List.getElem?_eq_getElem hin
        _ = (target.drop pos)[k - pos]? := (List.prefix_iff_getElem?.mp hpiece _ hin).symm
        _ = target[k]? := by rw [List.getElem?_drop, Nat.add_sub_cancel' hk.1]
  · rfl

end AetherBond.Lib

import Mathlib.Data.List.Basic

/-! # Reading frames from a stream

A reader collects a frame of known length in a buffer, and is handed its input in pieces that have
nothing to do with the frames.  It copies as much of a piece as there is room for, works on the
frame if it is now complete, and goes on with what is left of the piece (`feed`).

Where a piece that fits may as well be put in two parts (`Splits`), the loop does what it would do
with the input byte by byte (`feed_eq_foldl`), so that it does not matter how the input was cut
(`feed_append`). -/
namespace FrameBuffers

variable {α σ : Type}

/-! ## Buffers -/

/-- `copy_from_slice` into the part of `buf` that starts at `pos`. -/
def overwrite (buf : List α) (pos : Nat) (piece : List α) : List α :=
  buf.take pos ++ piece ++ buf.drop (pos + piece.length)

/-- `Vec::resize`. -/
def resize (buf : List α) (n : Nat) (a : α) : List α :=
  buf.take n ++ List.replicate (n - buf.length) a

@[simp] theorem length_resize (buf : List α) (n : Nat) (a : α) : (resize buf n a).length = n := by
  simp only [resize, List.length_append, List.length_take, List.length_replicate]
  omega

theorem length_overwrite {buf piece : List α} {pos : Nat} (h : pos + piece.length ≤ buf.length) :
    (overwrite buf pos piece).length = buf.length := by
  simp only [overwrite, List.length_append, List.length_take, List.length_drop]
  omega

/-- What has been collected once `piece` is there too. -/
theorem take_overwrite {buf piece : List α} {pos : Nat} (h : pos ≤ buf.length) :
    (overwrite buf pos piece).take (pos + piece.length) = buf.take pos ++ piece := by
  have hlen : (buf.take pos ++ piece).length = pos + piece.length := by
    simp [Nat.min_eq_left h]
  rw [overwrite, ← hlen, List.take_left]

/-- A piece that is put in two parts is put. -/
theorem overwrite_append {buf front back : List α} {pos : Nat} (h : pos ≤ buf.length) :
    overwrite buf pos (front ++ back) =
      overwrite (overwrite buf pos front) (pos + front.length) back := by
  have hlen : (buf.take pos ++ front).length = pos + front.length := by
    simp [Nat.min_eq_left h]
  have hdrop : (overwrite buf pos front).drop (pos + front.length + back.length) =
      buf.drop (pos + front.length + back.length) := by
    rw [overwrite, ← hlen, List.drop_append, List.drop_of_length_le (by omega), List.nil_append,
      List.drop_drop, hlen]
    congr 1
    omega
  rw [overwrite.eq_1 (overwrite buf pos front), take_overwrite h, hdrop, overwrite]
  simp [Nat.add_assoc]

/-! ## The loop -/

section Loop
variable (room : σ → Nat) (put : σ → List α → σ)

/-- The loop: each round puts as much as there is room for. -/
def feed : (fuel : Nat) → σ → List α → σ
  | 0, s, _ => s
  | fuel + 1, s, data =>
    if data.isEmpty then s
    else feed fuel (put s (data.take (room s))) (data.drop (room s))

variable {room put} in
/-- What no piece spoils holds after the loop. -/
theorem feed_keeps {P : σ → Prop} (hput : ∀ s piece, P s → P (put s piece)) {s : σ} (h : P s)
    (fuel : Nat) (data : List α) : P (feed room put fuel s data) := by
  induction fuel generalizing s data with
  | zero => exact h
  | succ fuel ih =>
    rw [feed]
    split
    · exact h
    · exact ih (hput s _ h) _

variable {room put} in
/-- The loop on a part of the state that the room and the pieces can be told from. -/
theorem feed_map {τ : Type} {room' : τ → Nat} {put' : τ → List α → τ} (f : σ → τ)
    (hroom : ∀ s, room' (f s) = room s) (hput : ∀ s piece, put' (f s) piece = f (put s piece))
    (fuel : Nat) (s : σ) (data : List α) :
    f (feed room put fuel s data) = feed room' put' fuel (f s) data := by
  induction fuel generalizing s data with
  | zero => rfl
  | succ fuel ih =>
    rw [feed, feed, hroom, hput]
    split
    · rfl
    · exact ih _ _

/-- **A piece may be put in parts**, and where there is no room nothing more happens after the
first attempt. -/
structure Splits : Prop where
  put_append : ∀ s front back, front ≠ [] → back ≠ [] → front.length + back.length ≤ room s →
    put s (front ++ back) = put (put s front) back
  room_put : ∀ s piece, piece ≠ [] → piece.length < room s →
    room (put s piece) = room s - piece.length
  put_full : ∀ s piece, room s = 0 → put s piece = put s []
  room_full : ∀ s, room s = 0 → room (put s []) = 0
  put_put_full : ∀ s, room s = 0 → put (put s []) [] = put s []

variable {room put}

/-- Byte by byte, where there is no room. -/
theorem Splits.foldl_full (hs : Splits room put) {s : σ} (hroom : room s = 0)
    (hput : put s [] = s) (data : List α) : data.foldl (fun s a => put s [a]) s = s := by
  induction data with
  | nil => rfl
  | cons a data ih => rw [List.foldl_cons, hs.put_full s [a] hroom, hput, ih]

/-- Byte by byte, where there is room for all. -/
theorem Splits.put_eq_foldl (hs : Splits room put) {s : σ} {piece : List α} (hne : piece ≠ [])
    (hroom : piece.length ≤ room s) : put s piece = piece.foldl (fun s a => put s [a]) s := by
  induction piece generalizing s with
  | nil => exact absurd rfl hne
  | cons a piece ih =>
    by_cases hp : piece = []
    · subst hp
      rfl
    · rw [List.length_cons] at hroom
      have hpos : 0 < piece.length := List.length_pos_iff.mpr hp
      have hleft : room (put s [a]) = room s - 1 := by
        refine hs.room_put s [a] (by simp) ?_
        simp only [List.length_singleton]
        omega
      have hput : put s (a :: piece) = put (put s [a]) piece := by
        refine hs.put_append s [a] piece (by simp) hp ?_
        simp only [List.length_singleton]
        omega
      rw [hput, List.foldl_cons, ih hp (by omega)]

/-- **The loop reads byte by byte.** -/
theorem Splits.feed_eq_foldl (hs : Splits room put) {fuel : Nat} {s : σ} {data : List α}
    (hfuel : data.length ≤ fuel) :
    feed room put fuel s data = data.foldl (fun s a => put s [a]) s := by
  induction fuel generalizing s data with
  | zero =>
    rw [List.eq_nil_of_length_eq_zero (by omega : data.length = 0)]
    rfl
  | succ fuel ih =>
    rw [feed]
    by_cases hdata : data = []
    · subst hdata
      rfl
    · rw [if_neg (by simpa using hdata)]
      have hlen : 0 < data.length := List.length_pos_iff.mpr hdata
      rcases Nat.eq_zero_or_pos (room s) with hroom | hroom
      · -- the data does not get shorter, but the state does not change either
        have hstay := hs.foldl_full (hs.room_full s hroom) (hs.put_put_full s hroom)
        have hfeed : ∀ n (rest : List α), feed room put n (put s []) rest = put s [] := by
          intro n
          induction n with
          | zero => intro rest; rfl
          | succ n ihn =>
            intro rest
            rw [feed]
            by_cases hrest : rest = []
            · rw [if_pos (by simpa using hrest)]
            · rw [if_neg (by simpa using hrest), hs.put_full _ _ (hs.room_full s hroom),
                hs.put_put_full s hroom, ihn]
        rw [hs.put_full s _ hroom, hfeed]
        obtain ⟨a, rest, rfl⟩ := List.exists_cons_of_ne_nil hdata
        rw [List.foldl_cons, hs.put_full s [a] hroom, hstay]
      · have hpiece : data.take (room s) ≠ [] := by
          rw [← List.length_pos_iff, List.length_take]
          omega
        have hfit : (data.take (room s)).length ≤ room s := by
          rw [List.length_take]
          omega
        have hrest : (data.drop (room s)).length ≤ fuel := by
          rw [List.length_drop]
          omega
        rw [ih hrest, hs.put_eq_foldl hpiece hfit, ← List.foldl_append, List.take_append_drop]

/-- **It does not matter where the input is cut.** -/
theorem Splits.feed_append (hs : Splits room put) (s : σ) (front back : List α) :
    feed room put (front ++ back).length s (front ++ back) =
      feed room put back.length (feed room put front.length s front) back := by
  rw [hs.feed_eq_foldl (Nat.le_refl _), hs.feed_eq_foldl (Nat.le_refl _),
    hs.feed_eq_foldl (Nat.le_refl _), List.foldl_append]

end Loop

/-! ## A queue of buffers -/

/-- What is still to be written: the first buffer from `offset` on, and the others. -/
def remaining : List (List α) → (offset : Nat) → List α
  | [], _ => []
  | buf :: queue, offset => buf.drop offset ++ queue.flatten

/-- The offset is in the first buffer, or 0 if there is none. -/
def OffsetFits (queue : List (List α)) (offset : Nat) : Prop := offset ≤ (queue.headD []).length

theorem OffsetFits.concat {queue : List (List α)} {offset : Nat} (h : OffsetFits queue offset)
    (buf : List α) : OffsetFits (queue ++ [buf]) offset := by
  cases queue with
  | nil => exact Nat.le_trans h (Nat.zero_le _)
  | cons first queue => exact h

theorem remaining_concat {queue : List (List α)} {offset : Nat} (h : OffsetFits queue offset)
    (buf : List α) : remaining (queue ++ [buf]) offset = remaining queue offset ++ buf := by
  cases queue with
  | nil =>
    obtain rfl : offset = 0 := Nat.le_zero.mp h
    simp [remaining]
  | cons first queue => simp [remaining]

end FrameBuffers

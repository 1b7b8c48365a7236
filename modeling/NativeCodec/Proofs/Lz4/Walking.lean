import Mathlib.Combinatorics.Pigeonhole
import Mathlib.Data.Int.Interval
import NativeCodec.Lz4.Items

set_option autoImplicit false
set_option relaxedAutoImplicit false

namespace NativeCodec.Lz4

variable {items : Array Int}

private theorem itemAt_eq_some {pos item : Int} (h : itemAt items pos = some item) :
    -items.size ≤ pos ∧ pos < items.size := by
  unfold itemAt at h
  split at h
  · split at h
    · exact absurd h (by simp)
    · omega
  · obtain ⟨hlt, -⟩ := Array.getElem?_eq_some_iff.mp h
    omega

private theorem ItemPiece.inside_of_read {pos : Int} {piece : ItemPiece}
    (h : ItemPiece.read items pos = .ok piece) : -items.size ≤ pos ∧ pos < items.size := by
  unfold ItemPiece.read at h
  split at h
  · exact absurd h (by simp)
  · cases hitem : itemAt items pos with
    | none => simp [hitem] at h
    | some tok => exact itemAt_eq_some hitem

namespace Walker

variable {u v w : Walker} {e : ItemEnd} {count more : Nat}

def raise (w : Walker) (n : Int) : Walker := ⟨w.position, w.produced + n⟩

private theorem raise_raise (w : Walker) (m n : Int) : (w.raise m).raise n = w.raise (m + n) := by
  unfold raise
  rw [Int.add_assoc]

private theorem eq_raise (h : v.position = w.position) : v = w.raise (v.produced - w.produced) := by
  unfold raise
  rw [← h, Int.add_comm, Int.sub_add_cancel]

theorem turn_eq_ok : u.turn items = .ok v ↔ ∃ literals offset length next,
    ItemPiece.read items u.position = .ok (.inner literals offset length next) ∧ offset ≠ 0 ∧
      offset ≤ u.produced + literals ∧ v = ⟨next, u.produced + literals + length⟩ := by
  unfold turn
  split
  · next e hread => simp [hread]
  · next literals hread => simp [hread]
  · next literals offset length next hread =>
    split
    · next hbad =>
      refine iff_of_false (by simp) ?_
      rintro ⟨_, _, _, _, hread', hne, hle, -⟩
      rw [hread, Except.ok.injEq, ItemPiece.inner.injEq] at hread'
      obtain ⟨rfl, rfl, rfl, rfl⟩ := hread'
      omega
    · next hgood =>
      simp only [hread, Except.ok.injEq, ItemPiece.inner.injEq]
      constructor
      · rintro rfl
        exact ⟨literals, offset, length, next, ⟨rfl, rfl, rfl, rfl⟩, by omega, by omega, rfl⟩
      · rintro ⟨_, _, _, _, ⟨rfl, rfl, rfl, rfl⟩, -, -, rfl⟩
        rfl

/-- A walker that has found more makes the same turn. One that has found less makes it too, unless
the match reaches back too far. -/
private theorem turn_raise (h : u.turn items = .ok v) (n : Int) :
    (u.raise n).turn items = .ok (v.raise n) ∨
      n < 0 ∧ (u.raise n).turn items = .error (.size none) := by
  obtain ⟨literals, offset, length, next, hread, hne, hle, rfl⟩ := turn_eq_ok.mp h
  by_cases hfar : offset ≤ u.produced + n + literals
  · refine Or.inl (turn_eq_ok.mpr ⟨literals, offset, length, next, hread, hne, hfar, ?_⟩)
    unfold raise
    congr 1
    dsimp only
    omega
  · refine Or.inr ⟨by omega, ?_⟩
    unfold turn
    have hsame : ItemPiece.read items (u.raise n).position = _ := hread
    rw [hsame]
    exact if_pos (Or.inr (Int.not_le.mp hfar))

theorem turns_succ (h : u.turn items = .ok v) (count : Nat) :
    u.turns items (count + 1) = v.turns items count := by
  rw [turns, h]

private theorem turn_of_turns_one (h : u.turns items 1 = .ok v) : u.turn items = .ok v := by
  rw [turns] at h
  cases hturn : u.turn items with
  | error e => simp [hturn] at h
  | ok w =>
    rw [hturn] at h
    exact h

private theorem turns_add (h : u.turns items count = .ok v) (more : Nat) :
    u.turns items (count + more) = v.turns items more := by
  induction count generalizing u with
  | zero => rw [Nat.zero_add, Except.ok.inj h]
  | succ count ih =>
    rw [turns] at h
    cases hturn : u.turn items with
    | error e => simp [hturn] at h
    | ok w =>
      rw [hturn] at h
      rw [Nat.add_right_comm, turns_succ hturn, ih h]

private theorem turns_error_add (h : u.turns items count = .error e) (more : Nat) :
    u.turns items (count + more) = .error e := by
  induction count generalizing u with
  | zero => exact absurd h (by simp [turns])
  | succ count ih =>
    rw [Nat.add_right_comm, turns]
    rw [turns] at h
    cases hturn : u.turn items with
    | error e' =>
      rw [hturn] at h
      exact h
    | ok w =>
      rw [hturn] at h
      exact ih h

private theorem turns_split (h : u.turns items (count + more) = .ok v) :
    ∃ w, u.turns items count = .ok w ∧ w.turns items more = .ok v := by
  cases hfirst : u.turns items count with
  | error e => exact absurd ((turns_error_add hfirst more).symm.trans h) (by simp)
  | ok w => exact ⟨w, rfl, (turns_add hfirst more).symm.trans h⟩

private theorem turns_error_unique {e' : ItemEnd} (h : u.turns items count = .error e)
    (h' : u.turns items more = .error e') : e = e' := by
  have hsum := turns_error_add h more
  rw [Nat.add_comm, turns_error_add h' count] at hsum
  exact (Except.error.inj hsum).symm

/-- A walker that has found more makes the same turns. One that has found less makes them too,
unless a match of them reaches back too far. -/
theorem turns_raise (h : u.turns items count = .ok v) (n : Int) :
    (u.raise n).turns items count = .ok (v.raise n) ∨
      n < 0 ∧ (u.raise n).turns items count = .error (.size none) := by
  induction count generalizing u with
  | zero => exact Or.inl (by rw [turns, Except.ok.inj h])
  | succ count ih =>
    rw [turns] at h
    cases hturn : u.turn items with
    | error e => simp [hturn] at h
    | ok w =>
      rw [hturn] at h
      rcases turn_raise hturn n with hsame | ⟨hless, hfar⟩
      · rw [turns_succ hsame]
        exact ih h
      · refine Or.inr ⟨hless, ?_⟩
        rw [turns, hfar]

/-- A walk that is back makes the same turns again and again, and finds so much more each time,
unless that is less and a match reaches back too far in the end. -/
private theorem turns_rounds {n : Int} (hround : w.turns items more = .ok (w.raise n)) (k : Nat) :
    w.turns items (k * more) = .ok (w.raise (k * n)) ∨
      n < 0 ∧ ∃ count, w.turns items count = .error (.size none) := by
  induction k with
  | zero => exact Or.inl (by simp [turns, raise])
  | succ k ih =>
    rcases ih with hrounds | hend
    · have hnext : k * n + n = (k + 1 : Nat) * n := by
        push_cast
        ring
      rcases turns_raise hround (k * n) with hsame | ⟨hless, hfar⟩
      · rw [Nat.succ_mul, turns_add hrounds, hsame, raise_raise, Int.add_comm, hnext]
        exact Or.inl rfl
      · have hn : n < 0 := Int.not_le.mp fun hn =>
          absurd hless (Int.not_lt.mpr (Int.mul_nonneg (Int.natCast_nonneg k) hn))
        exact Or.inr ⟨hn, _, (turns_add hrounds more).trans hfar⟩
    · exact Or.inr hend

theorem turns_forever {n : Int} (hround : w.turns items more = .ok (w.raise n)) (hmore : 0 < more)
    (hn : 0 ≤ n) (count : Nat) : ∃ v, w.turns items count = .ok v := by
  have hlong : count + (count * more - count) = count * more :=
    Nat.add_sub_of_le (Nat.le_mul_of_pos_right count hmore)
  rcases turns_rounds hround count with hrounds | ⟨hless, -⟩
  · obtain ⟨v, hv, -⟩ := turns_split (hlong ▸ hrounds)
    exact ⟨v, hv⟩
  · exact absurd hless (Int.not_lt.mpr hn)

/-- A walk that is back with less than before comes to a match that reaches back too far. -/
theorem turns_exhaust {n : Int} (hround : w.turns items more = .ok (w.raise n)) (hmore : 0 < more)
    (hn : n < 0) : ∃ count, w.turns items count = .error (.size none) := by
  obtain ⟨k, rfl⟩ := Nat.exists_eq_add_of_lt hmore
  rw [Nat.zero_add] at hround
  obtain ⟨next, hone, -⟩ := turns_split (Nat.add_comm k 1 ▸ hround)
  have hturn := turn_of_turns_one hone
  obtain ⟨literals, offset, _, _, hread, -⟩ := turn_eq_ok.mp hturn
  -- After so many rounds the first match of a round reaches back too far.
  obtain ⟨j, hj⟩ : ∃ j : Nat, w.produced + literals - offset < j :=
    ⟨(w.produced + literals - offset).toNat + 1, by omega⟩
  have hless : (j : Int) * n ≤ j * (-1) :=
    Int.mul_le_mul_of_nonneg_left (by omega) (Int.natCast_nonneg j)
  rcases turns_rounds hround j with hrounds | ⟨-, hend⟩
  · rcases turn_raise hturn (j * n) with hsame | ⟨-, hfar⟩
    · obtain ⟨_, _, _, _, hread', -, hle, -⟩ := turn_eq_ok.mp hsame
      have hpiece := hread'.symm.trans hread
      rw [Except.ok.injEq, ItemPiece.inner.injEq] at hpiece
      obtain ⟨rfl, rfl, -, -⟩ := hpiece
      unfold raise at hle
      dsimp only at hle
      omega
    · exact ⟨_, by rw [turns_add hrounds 1, turns, hfar]⟩
  · exact hend

private theorem position_of_return {a b : Walker} {first again : Nat}
    (ha : u.turns items first = .ok a)
    (hb : u.turns items again = .ok b) (hsame : b.position = a.position) (hlt : first < again)
    (hle : again ≤ count) (hw : u.turns items count = .ok w)
    (hv : w.turns items (again - first) = .ok v) : v.position = w.position := by
  have hfirst : a.turns items (count - first) = .ok w := by
    rw [← turns_add ha, Nat.add_sub_of_le (by omega), hw]
  have hagain : b.turns items (count - first) = .ok v := by
    rw [← turns_add hb, show again + (count - first) = count + (again - first) by omega,
      turns_add hw, hv]
  rw [eq_raise hsame] at hagain
  rcases turns_raise hfirst (b.produced - a.produced) with hraised | ⟨-, hfar⟩
  · rw [Except.ok.inj (hagain.symm.trans hraised)]
    rfl
  · exact absurd (hagain.symm.trans hfar) (by simp)

private theorem inside_of_turns (h : u.turns items more = .ok w) (hlt : count < more) :
    ∃ v, u.turns items count = .ok v ∧ -items.size ≤ v.position ∧ v.position < items.size := by
  obtain ⟨k, rfl⟩ := Nat.exists_eq_add_of_lt hlt
  rw [Nat.add_assoc, Nat.add_comm k 1] at h
  obtain ⟨v, hv, hrest⟩ := turns_split h
  obtain ⟨x, hone, -⟩ := turns_split hrest
  obtain ⟨_, _, _, _, hread, -⟩ := turn_eq_ok.mp (turn_of_turns_one hone)
  exact ⟨v, hv, ItemPiece.inside_of_read hread⟩

/-- A walk of more turns than there are positions is back at one of them, and so the last is come
back to before as many more turns are made. -/
theorem exists_return (h : start.turns items (2 * items.size + 1) = .ok w)
    (hmore : w.turns items (2 * items.size) = .ok v) :
    ∃ count u, 0 < count ∧ count ≤ 2 * items.size ∧ w.turns items count = .ok u ∧
      u.position = w.position := by
  have hwalker : ∀ i, ∃ u, i < 2 * items.size + 1 → start.turns items i = .ok u ∧
      u.position ∈ Finset.Ico (-(items.size : Int)) items.size := by
    intro i
    by_cases hi : i < 2 * items.size + 1
    · obtain ⟨u, hu, hinside⟩ := inside_of_turns h hi
      exact ⟨u, fun _ => ⟨hu, Finset.mem_Ico.mpr hinside⟩⟩
    · exact ⟨start, fun hlt => absurd hlt hi⟩
  choose walker hwalker using hwalker
  have hcard : (Finset.Ico (-(items.size : Int)) items.size).card <
      (Finset.range (2 * items.size + 1)).card := by
    rw [Int.card_Ico, Finset.card_range]
    omega
  obtain ⟨i, hi, j, hj, hne, hsame⟩ := Finset.exists_ne_map_eq_of_card_lt_of_maps_to hcard
    (f := fun i => (walker i).position) fun i hi => (hwalker i (Finset.mem_range.mp hi)).2
  rw [Finset.mem_range] at hi hj
  have hback : ∀ first again, first < again → again < 2 * items.size + 1 →
      (walker again).position = (walker first).position → ∃ count u, 0 < count ∧
        count ≤ 2 * items.size ∧ w.turns items count = .ok u ∧ u.position = w.position := by
    intro first again hlt hle hposition
    have hlong : again - first + (2 * items.size - (again - first)) = 2 * items.size := by omega
    obtain ⟨u, hu, -⟩ := turns_split (hlong ▸ hmore)
    exact ⟨again - first, u, by omega, by omega, hu, position_of_return
      (hwalker first (by omega)).1 (hwalker again hle).1 hposition hlt (Nat.le_of_lt hle) h hu⟩
  rcases Nat.lt_or_gt_of_ne hne with hlt | hlt
  · exact hback i j hlt hj hsame.symm
  · exact hback j i hlt hi hsame

/-- What walking back to a position comes to: to the end of the walk, to the position, or to the
number of turns that are allowed, none of which has led there. -/
private theorem backTo_cases (items : Array Int) (w : Walker) (position : Int) (limit : Nat) :
    (∃ e count, w.backTo items position limit = .error e ∧ w.turns items count = .error e) ∨
    (∃ v count, w.backTo items position limit = .ok v ∧ 0 < count ∧
      w.turns items count = .ok v ∧ v.position = position) ∨
    (∃ v, w.turns items limit = .ok v ∧ ∀ count u, 0 < count → count ≤ limit →
      w.turns items count = .ok u → u.position ≠ position) := by
  induction limit generalizing w with
  | zero => exact Or.inr (Or.inr ⟨w, rfl, fun count u hpos hle => by omega⟩)
  | succ limit ih =>
    cases hturn : w.turn items with
    | error e => exact Or.inl ⟨e, 1, by rw [backTo, hturn], by rw [turns, hturn]⟩
    | ok next =>
      by_cases hback : next.position = position
      · refine Or.inr (Or.inl ⟨next, 1, ?_, Nat.one_pos, ?_, hback⟩)
        · rw [backTo, hturn]
          exact if_pos hback
        · rw [turns_succ hturn, turns]
      · have hgo : w.backTo items position (limit + 1) = next.backTo items position limit := by
          rw [backTo, hturn]
          exact if_neg hback
        rw [hgo]
        rcases ih next with ⟨e, count, hend, hturns⟩ | ⟨v, count, hend, hpos, hturns, hv⟩ |
          ⟨v, hturns, hnone⟩
        · exact Or.inl ⟨e, count + 1, hend, by rw [turns_succ hturn, hturns]⟩
        · exact Or.inr (Or.inl ⟨v, count + 1, hend, Nat.succ_pos count,
            by rw [turns_succ hturn, hturns], hv⟩)
        · refine Or.inr (Or.inr ⟨v, by rw [turns_succ hturn, hturns], ?_⟩)
          intro count u hpos hle hu
          cases count with
          | zero => exact absurd hpos (Nat.lt_irrefl 0)
          | succ count =>
            rw [turns_succ hturn] at hu
            cases count with
            | zero => exact (Except.ok.inj hu) ▸ hback
            | succ count => exact hnone (count + 1) u (Nat.succ_pos count) (by omega) hu

end Walker

/-- A walk goes round: it is back at a position with no less than it had found there. -/
def Round (items : Array Int) : Prop :=
  ∃ count more w v, 0 < more ∧ Walker.start.turns items count = .ok w ∧
    w.turns items more = .ok v ∧ v.position = w.position ∧ w.produced ≤ v.produced

theorem Round.forever (h : Round items) (count : Nat) :
    ∃ w, Walker.start.turns items count = .ok w := by
  obtain ⟨first, more, w, v, hmore, hw, hv, hposition, hle⟩ := h
  rw [Walker.eq_raise hposition] at hv
  obtain ⟨u, hu⟩ := Walker.turns_forever hv hmore (Int.sub_nonneg_of_le hle) count
  rw [← Walker.turns_add hw, Nat.add_comm] at hu
  obtain ⟨x, hx, -⟩ := Walker.turns_split hu
  exact ⟨x, hx⟩

private theorem walkItems_cases (items : Array Int) :
    (∃ e count, walkItems items = some e ∧ Walker.start.turns items count = .error e) ∨
      walkItems items = none ∧ Round items := by
  unfold walkItems
  cases hlong : Walker.start.turns items (2 * items.size + 1) with
  | error e => exact Or.inl ⟨e, _, rfl, hlong⟩
  | ok w =>
    dsimp only
    rcases w.backTo_cases items w.position (2 * items.size) with
      ⟨e, count, hend, hturns⟩ | ⟨v, count, hend, hpos, hturns, hposition⟩ | ⟨v, hturns, hnone⟩
    · exact Or.inl ⟨e, 2 * items.size + 1 + count, by rw [hend],
        by rw [Walker.turns_add hlong, hturns]⟩
    · rw [hend]
      by_cases hle : w.produced ≤ v.produced
      · exact Or.inr ⟨if_pos hle, _, count, w, v, hpos, hlong, hturns, hposition, hle⟩
      · have hround := Walker.eq_raise hposition ▸ hturns
        obtain ⟨more, hmore⟩ := Walker.turns_exhaust hround hpos (by omega)
        exact Or.inl ⟨.size none, 2 * items.size + 1 + more, if_neg hle,
          by rw [Walker.turns_add hlong, hmore]⟩
    · obtain ⟨count, u, hpos, hle, hu, hposition⟩ := Walker.exists_return hlong hturns
      exact absurd hposition (hnone count u hpos hle hu)

theorem walkItems_eq_some_iff {e : ItemEnd} :
    walkItems items = some e ↔ ∃ count, Walker.start.turns items count = .error e := by
  rcases walkItems_cases items with ⟨e', count, hend, hturns⟩ | ⟨hnone, hround⟩
  · rw [hend, Option.some.injEq]
    constructor
    · rintro rfl
      exact ⟨count, hturns⟩
    · rintro ⟨more, hmore⟩
      exact Walker.turns_error_unique hturns hmore
  · rw [hnone]
    refine iff_of_false (by simp) ?_
    rintro ⟨count, herror⟩
    obtain ⟨w, hw⟩ := hround.forever count
    exact absurd (hw.symm.trans herror) (by simp)

theorem walkItems_eq_none_iff : walkItems items = none ↔ Round items := by
  rcases walkItems_cases items with ⟨e, count, hend, hturns⟩ | ⟨hnone, hround⟩
  · rw [hend]
    refine iff_of_false (by simp) fun hround => ?_
    obtain ⟨w, hw⟩ := hround.forever count
    exact absurd (hw.symm.trans hturns) (by simp)
  · exact iff_of_true hnone hround

end NativeCodec.Lz4

import NativeCodec.Proofs.Lz4.Grammar
import NativeCodec.Proofs.Lz4.Walking

set_option autoImplicit false
set_option relaxedAutoImplicit false

namespace NativeCodec.Lz4

def byteItems (bytes : Bytes) : Array Int := (bytes.map fun b => (b.toNat : Int)).toArray

@[simp] theorem size_byteItems (bytes : Bytes) : (byteItems bytes).size = bytes.length := by
  simp [byteItems]

def startOf (bytes rest : Bytes) : Int := bytes.length - rest.length

@[simp] theorem startOf_self (bytes : Bytes) : startOf bytes bytes = 0 := Int.sub_self _

private theorem startOf_append (bytes first rest : Bytes) :
    startOf bytes (first ++ rest) + first.length = startOf bytes rest := by
  unfold startOf
  rw [List.length_append]
  omega

private theorem startOf_cons (bytes : Bytes) (b : UInt8) (rest : Bytes) :
    startOf bytes (b :: rest) + 1 = startOf bytes rest := startOf_append bytes [b] rest

section Bytes

variable {bytes rest : Bytes}

private theorem itemAt_startOf {b : UInt8} (h : b :: rest <:+ bytes) :
    itemAt (byteItems bytes) (startOf bytes (b :: rest)) = some (b.toNat : Int) := by
  obtain ⟨front, rfl⟩ := h
  have hstart : startOf (front ++ b :: rest) (b :: rest) = (front.length : Int) := by
    unfold startOf
    rw [List.length_append]
    omega
  unfold itemAt
  rw [hstart, if_neg (by omega), Int.toNat_natCast]
  simp [byteItems]

private theorem size_le_startOf_iff : (byteItems bytes).size ≤ startOf bytes rest ↔ rest = [] := by
  unfold startOf
  rw [size_byteItems, ← List.length_eq_zero_iff]
  omega

private theorem startOf_eq_size_iff : startOf bytes rest = (byteItems bytes).size ↔ rest = [] := by
  unfold startOf
  rw [size_byteItems, ← List.length_eq_zero_iff]
  omega

private theorem startOf_le_size : startOf bytes rest ≤ (byteItems bytes).size := by
  unfold startOf
  rw [size_byteItems]
  omega

private theorem size_lt_startOf_add_iff (count : Nat) :
    (byteItems bytes).size < startOf bytes rest + count ↔ rest.length < count := by
  unfold startOf
  rw [size_byteItems]
  omega

private theorem disjunction_bytes (low high : UInt8) :
    disjunction low.toNat (high.toNat * 256) = ((low.toNat + 256 * high.toNat : Nat) : Int) := by
  have hlow : low.toNat < 2 ^ 8 := low.toNat_lt
  have hhigh : high.toNat < 2 ^ 8 := high.toNat_lt
  have hor : low.toNat ||| high.toNat * 256 = low.toNat + 256 * high.toNat := by
    rw [Nat.or_comm, Nat.mul_comm high.toNat, Nat.add_comm]
    exact (Nat.two_pow_add_eq_or_of_lt hlow high.toNat).symm
  have hcast : (high.toNat : Int) * 256 = ((high.toNat * 256 : Nat) : Int) := by push_cast; rfl
  have hnat : (BitVec.ofNat 80 low.toNat ||| BitVec.ofNat 80 (high.toNat * 256)).toNat =
      low.toNat + 256 * high.toNat := by
    rw [BitVec.toNat_or, BitVec.toNat_ofNat, BitVec.toNat_ofNat, Nat.mod_eq_of_lt (by omega),
      Nat.mod_eq_of_lt (by omega), hor]
  unfold disjunction
  rw [hcast, BitVec.ofInt_natCast, BitVec.ofInt_natCast,
    BitVec.toInt_eq_toNat_of_lt (by rw [hnat]; omega), hnat]

def lengthOnItems (bytes : Bytes) : Option (Nat × Bytes) → Except ItemEnd (Int × Int)
  | none => .error (.size none)
  | some (n, rest) => .ok (startOf bytes rest, n)

def pieceOnItems (bytes : Bytes) : Option Piece → Except ItemEnd ItemPiece
  | none => .error (.size none)
  | some (.last literals) => .ok (.last literals.length)
  | some (.inner literals copy rest) =>
    .ok (.inner literals.length copy.offset copy.length (startOf bytes rest))

private theorem walkExtension_byteItems (h : rest <:+ bytes) (length : Nat) :
    walkExtension (byteItems bytes) (startOf bytes rest) length =
      lengthOnItems bytes (readExtension length rest) := by
  induction rest generalizing length with
  | nil =>
    rw [walkExtension, if_pos (size_le_startOf_iff.mpr rfl)]
    rfl
  | cons b rest ih =>
    rw [walkExtension, if_neg (mt size_le_startOf_iff.mp (List.cons_ne_nil b rest)),
      itemAt_startOf h]
    dsimp only
    rw [startOf_cons, readExtension]
    by_cases hb : b = 255
    · subst hb
      rw [if_pos (show ((255 : UInt8).toNat : Int) = 255 from rfl), if_pos rfl]
      exact ih ((List.suffix_cons 255 rest).trans h) (length + 255)
    · have hne : (b.toNat : Int) ≠ 255 := fun hsame =>
        hb (UInt8.toNat_inj.mp (Int.ofNat_inj.mp hsame))
      rw [if_neg hb, if_neg hne]
      rfl

private theorem walkLength_byteItems (h : rest <:+ bytes) (nibble : Nat) :
    walkLength (byteItems bytes) (startOf bytes rest) nibble =
      lengthOnItems bytes (readLength nibble rest) := by
  unfold walkLength readLength
  by_cases hn : nibble = 15
  · rw [if_pos hn, if_pos (by omega), hn]
    exact walkExtension_byteItems h 15
  · rw [if_neg hn, if_neg (by omega)]
    rfl

private theorem readCopy_byteItems (h : rest <:+ bytes) (htwo : 2 ≤ rest.length) (tok : UInt8)
    (literals : Bytes) :
    ItemPiece.readCopy (byteItems bytes) tok.toNat (startOf bytes rest) literals.length =
      pieceOnItems bytes ((readCopy (tok.toNat % 16) rest).map fun found =>
        .inner literals found.1 found.2) := by
  match rest, htwo with
  | low :: high :: rest, _ =>
    have hhigh := (List.suffix_cons low (high :: rest)).trans h
    have hrest := (List.suffix_cons high rest).trans hhigh
    have hnibble : (tok.toNat : Int) % 16 = ((tok.toNat % 16 : Nat) : Int) := by omega
    have hnext : startOf bytes (low :: high :: rest) + 2 = startOf bytes rest :=
      startOf_append bytes [low, high] rest
    unfold ItemPiece.readCopy
    rw [itemAt_startOf h, startOf_cons, itemAt_startOf hhigh, hnext, hnibble,
      walkLength_byteItems hrest]
    dsimp only
    rw [disjunction_bytes, readCopy]
    cases readLength (tok.toNat % 16) rest with
    | none => rfl
    | some found => rfl

private theorem readLiterals_last (bytes literals : Bytes) (tok : Int) :
    ItemPiece.readLiterals (byteItems bytes) tok (startOf bytes literals) literals.length =
      .ok (.last literals.length) := by
  have hend : startOf bytes literals + literals.length = (byteItems bytes).size := by
    rw [size_byteItems]
    exact Int.sub_add_cancel _ _
  unfold ItemPiece.readLiterals
  rw [hend, if_neg (Int.lt_irrefl _), if_pos rfl]

private theorem readLiterals_byteItems (literals : Bytes) {more : Bytes} (h : more <:+ bytes)
    (hmore : more ≠ []) (tok : UInt8) :
    ItemPiece.readLiterals (byteItems bytes) tok.toNat (startOf bytes (literals ++ more))
        literals.length =
      pieceOnItems bytes ((readCopy (tok.toNat % 16) more).map fun found =>
        .inner literals found.1 found.2) := by
  have hroom : (byteItems bytes).size < startOf bytes more + 2 ↔ more.length < 2 :=
    size_lt_startOf_add_iff 2
  unfold ItemPiece.readLiterals
  rw [startOf_append, if_neg (Int.not_lt.mpr startOf_le_size),
    if_neg (mt startOf_eq_size_iff.mp hmore)]
  by_cases htwo : 2 ≤ more.length
  · rw [if_neg (mt hroom.mp (Nat.not_lt.mpr htwo))]
    exact readCopy_byteItems h htwo tok literals
  · rw [if_pos (hroom.mpr (Nat.lt_of_not_le htwo))]
    match more, hmore with
    | [low], _ => rfl
    | _ :: _ :: _, _ => exact absurd (Nat.le_add_left 2 _) htwo

private theorem read_byteItems (h : rest <:+ bytes) :
    ItemPiece.read (byteItems bytes) (startOf bytes rest) =
      pieceOnItems bytes (Piece.read? rest) := by
  unfold ItemPiece.read
  cases rest with
  | nil =>
    rw [if_pos (size_le_startOf_iff.mpr rfl)]
    rfl
  | cons tok rest =>
    have hrest := (List.suffix_cons tok rest).trans h
    have hnibble : (tok.toNat : Int) / 16 = ((tok.toNat / 16 : Nat) : Int) := by omega
    rw [if_neg (mt size_le_startOf_iff.mp (List.cons_ne_nil tok rest)), itemAt_startOf h]
    dsimp only
    rw [startOf_cons, hnibble, walkLength_byteItems hrest, Piece.read?]
    cases hlength : readLength (tok.toNat / 16) rest with
    | none => rfl
    | some found =>
      obtain ⟨count, after⟩ := found
      dsimp only [lengthOnItems]
      cases hsplit : Bytes.split? count after with
      | none =>
        have hshort : after.length < count := by
          unfold Bytes.split? at hsplit
          simpa using hsplit
        exact if_pos ((size_lt_startOf_add_iff count).mpr hshort)
      | some parts =>
        obtain ⟨literals, more⟩ := parts
        obtain ⟨rfl, rfl⟩ := Bytes.split?_eq_some hsplit
        obtain ⟨-, heq⟩ := eq_of_readLength (by have := tok.toNat_lt; omega) hlength
        cases more with
        | nil =>
          rw [List.append_nil]
          exact readLiterals_last bytes literals tok.toNat
        | cons low more =>
          have hmore : low :: more <:+ bytes :=
            ((List.suffix_append literals _).trans (heq ▸ List.suffix_append _ _)).trans hrest
          rw [readLiterals_byteItems literals hmore (List.cons_ne_nil low more)]
          dsimp only
          cases readCopy (tok.toNat % 16) (low :: more) with
          | none => rfl
          | some found => rfl

private theorem turns_byteItems (h : rest <:+ bytes) (produced : Nat) :
    ∃ count, (Walker.mk (startOf bytes rest) produced).turns (byteItems bytes) count =
      .error (.size ((walk produced rest).map fun n : Nat => (n : Int))) := by
  induction hn : rest.length using Nat.strong_induction_on generalizing rest produced with
  | h n ih =>
    have hread := read_byteItems h
    cases hpiece : Piece.read? rest with
    | none =>
      refine ⟨1, ?_⟩
      rw [hpiece] at hread
      rw [Walker.turns, Walker.turn, hread, walk_none hpiece]
      rfl
    | some piece =>
      rw [hpiece] at hread
      cases piece with
      | last literals =>
        refine ⟨1, ?_⟩
        rw [Walker.turns, Walker.turn, hread, walk_last hpiece]
        rfl
      | inner literals copy after =>
        by_cases hbad : copy.offset = 0 ∨ produced + literals.length < copy.offset
        · refine ⟨1, ?_⟩
          rw [Walker.turns, Walker.turn, hread, walk_inner hpiece, if_pos hbad]
          dsimp only [pieceOnItems]
          rw [if_pos (by omega)]
          rfl
        · obtain ⟨-, -, hencoded⟩ := Piece.eq_of_read?_inner hpiece
          have hafter : after <:+ bytes := (hencoded ▸ List.suffix_append _ after).trans h
          obtain ⟨count, hcount⟩ := ih after.length (hn ▸ Piece.read?_rest_lt hpiece) hafter
            (produced + literals.length + copy.length) rfl
          refine ⟨count + 1, ?_⟩
          rw [walk_inner hpiece, if_neg hbad, ← hcount]
          refine Walker.turns_succ (Walker.turn_eq_ok.mpr ?_) count
          exact ⟨_, _, _, _, hread, by omega, by dsimp only; omega, by push_cast; rfl⟩

theorem walkItems_byteItems (bytes : Bytes) :
    walkItems (byteItems bytes) =
      some (.size ((blockLength? bytes).map fun n : Nat => (n : Int))) := by
  refine walkItems_eq_some_iff.mpr ?_
  have hturns := turns_byteItems (List.suffix_refl bytes) 0
  rw [startOf_self] at hturns
  exact hturns

end Bytes

section Nonnegative

variable {items : Array Int} (hitems : ∀ item ∈ items, 0 ≤ item)

include hitems

private theorem itemAt_of_nonneg {pos : Int} (hpos : 0 ≤ pos) (hlt : pos < items.size) :
    ∃ item, itemAt items pos = some item ∧ 0 ≤ item := by
  have hindex : pos.toNat < items.size := by omega
  refine ⟨items[pos.toNat], ?_, hitems _ (Array.getElem_mem hindex)⟩
  unfold itemAt
  rw [if_neg (Int.not_lt.mpr hpos)]
  exact Array.getElem?_eq_getElem hindex

/-- A length that is carried on over items which are not negative does not get less, and takes an
item at least. -/
private theorem walkExtension_of_nonneg {pos length : Int} (hpos : 0 ≤ pos) (hlength : 0 ≤ length) :
    walkExtension items pos length = .error (.size none) ∨
      ∃ next n, walkExtension items pos length = .ok (next, n) ∧ pos < next ∧
        next ≤ items.size ∧ 0 ≤ n := by
  fun_induction walkExtension items pos length with
  | case1 pos length hle => exact Or.inl rfl
  | case2 pos length hle hnone =>
    obtain ⟨item, hitem, -⟩ := itemAt_of_nonneg hitems hpos (by omega)
    exact absurd (hnone.symm.trans hitem) (by simp)
  | case3 pos length hle hmore ih =>
    rcases ih (by omega) (by omega) with hnone | ⟨next, n, hok, hlt, hnext, hn⟩
    · exact Or.inl hnone
    · exact Or.inr ⟨next, n, hok, by omega, hnext, hn⟩
  | case4 pos length hle extra hextra hlast =>
    obtain ⟨item, hitem, hnonneg⟩ := itemAt_of_nonneg hitems hpos (by omega)
    obtain rfl := Option.some.inj (hextra.symm.trans hitem)
    exact Or.inr ⟨pos + 1, length + extra, rfl, by omega, by omega, by omega⟩

private theorem walkLength_of_nonneg {pos half : Int} (hpos : 0 ≤ pos) (hle : pos ≤ items.size)
    (hhalf : 0 ≤ half) :
    walkLength items pos half = .error (.size none) ∨
      ∃ next n, walkLength items pos half = .ok (next, n) ∧ pos ≤ next ∧
        next ≤ items.size ∧ 0 ≤ n := by
  unfold walkLength
  split
  · rcases walkExtension_of_nonneg hitems hpos hhalf with hnone | ⟨next, n, hok, hlt, hnext, hn⟩
    · exact Or.inl hnone
    · exact Or.inr ⟨next, n, hok, Int.le_of_lt hlt, hnext, hn⟩
  · exact Or.inr ⟨pos, half, rfl, Int.le_refl pos, hle, hhalf⟩

private theorem readCopy_of_nonneg {pos : Int} (hpos : 0 ≤ pos) (hle : pos + 2 ≤ items.size)
    (tok literals : Int) :
    ItemPiece.readCopy items tok pos literals = .error (.size none) ∨
      ∃ offset length next, ItemPiece.readCopy items tok pos literals =
        .ok (.inner literals offset length next) ∧ pos + 2 ≤ next ∧ next ≤ items.size := by
  obtain ⟨low, hlow, -⟩ := itemAt_of_nonneg hitems hpos (by omega)
  have hsecond : 0 ≤ pos + 1 := by omega
  obtain ⟨high, hhigh, -⟩ := itemAt_of_nonneg hitems hsecond (by omega)
  have hthird : 0 ≤ pos + 2 := by omega
  have hhalf : 0 ≤ tok % 16 := Int.emod_nonneg tok (by decide)
  unfold ItemPiece.readCopy
  rw [hlow, hhigh]
  rcases walkLength_of_nonneg hitems hthird hle hhalf with
    hnone | ⟨next, n, hok, hlt, hnext, -⟩
  · rw [hnone]
    exact Or.inl rfl
  · rw [hok]
    exact Or.inr ⟨_, _, next, rfl, hlt, hnext⟩

private theorem readLiterals_of_nonneg {pos literals : Int} (hpos : 0 ≤ pos)
    (hliterals : 0 ≤ literals)
    (tok : Int) :
    ItemPiece.readLiterals items tok pos literals = .error (.size none) ∨
      ItemPiece.readLiterals items tok pos literals = .ok (.last literals) ∨
      ∃ offset length next, ItemPiece.readLiterals items tok pos literals =
        .ok (.inner literals offset length next) ∧ pos + 2 ≤ next ∧ next ≤ items.size := by
  unfold ItemPiece.readLiterals
  split
  · exact Or.inl rfl
  · split
    · exact Or.inr (Or.inl rfl)
    · split
      · exact Or.inl rfl
      · next hroom =>
        have hcopies : 0 ≤ pos + literals := by omega
        rcases readCopy_of_nonneg hitems hcopies (by omega) tok literals with
          hnone | ⟨offset, length, next, hcopy, hnext, hinside⟩
        · exact Or.inl hnone
        · exact Or.inr (Or.inr ⟨offset, length, next, hcopy, by omega, hinside⟩)

private theorem read_of_nonneg {pos : Int} (hpos : 0 ≤ pos) :
    ItemPiece.read items pos = .error (.size none) ∨
      (∃ literals, ItemPiece.read items pos = .ok (.last literals)) ∨
      ∃ literals offset length next, ItemPiece.read items pos =
        .ok (.inner literals offset length next) ∧ pos + 3 ≤ next ∧ next ≤ items.size := by
  unfold ItemPiece.read
  split
  · exact Or.inl rfl
  · next hlt =>
    obtain ⟨tok, htok, hnonneg⟩ := itemAt_of_nonneg hitems hpos (by omega)
    have hafter : 0 ≤ pos + 1 := by omega
    have hhalf : 0 ≤ tok / 16 := by omega
    rw [htok]
    dsimp only
    rcases walkLength_of_nonneg hitems hafter (by omega) hhalf with
      hnone | ⟨first, literals, hok, hle, -, hliterals⟩
    · rw [hnone]
      exact Or.inl rfl
    · rw [hok]
      rcases readLiterals_of_nonneg hitems (hafter.trans hle) hliterals tok with
        hnone | hlast | ⟨offset, length, next, hinner, hnext, hinside⟩
      · exact Or.inl hnone
      · exact Or.inr (Or.inl ⟨literals, hlast⟩)
      · exact Or.inr (Or.inr ⟨literals, offset, length, next, hinner, by omega, hinside⟩)

/-- A turn over items that are not negative ends the walk with a size or none, or leads on by three
items at least. -/
private theorem turn_of_nonneg {u : Walker} (hpos : 0 ≤ u.position) :
    (∃ n, u.turn items = .error (.size n)) ∨
      ∃ v, u.turn items = .ok v ∧ u.position + 3 ≤ v.position ∧ v.position ≤ items.size := by
  unfold Walker.turn
  rcases read_of_nonneg hitems hpos with hnone | ⟨literals, hlast⟩ |
    ⟨literals, offset, length, next, hinner, hle, hinside⟩
  · rw [hnone]
    exact Or.inl ⟨none, rfl⟩
  · rw [hlast]
    exact Or.inl ⟨_, rfl⟩
  · rw [hinner]
    dsimp only
    split
    · exact Or.inl ⟨none, rfl⟩
    · exact Or.inr ⟨_, rfl, hle, hinside⟩

private theorem turns_of_nonneg {u : Walker} (hpos : 0 ≤ u.position) (hle : u.position ≤ items.size)
    (count : Nat) :
    (∃ n, u.turns items count = .error (.size n)) ∨
      ∃ v, u.turns items count = .ok v ∧ u.position + 3 * count ≤ v.position ∧
        v.position ≤ items.size := by
  induction count generalizing u with
  | zero => exact Or.inr ⟨u, rfl, by omega, hle⟩
  | succ count ih =>
    rw [Walker.turns]
    rcases turn_of_nonneg hitems hpos with ⟨n, hend⟩ | ⟨w, hturn, hw, hinside⟩
    · rw [hend]
      exact Or.inl ⟨n, rfl⟩
    · rw [hturn]
      rcases ih (by omega) hinside with hend | ⟨v, hturns, hv, hlast⟩
      · exact Or.inl hend
      · exact Or.inr ⟨v, hturns, by omega, hlast⟩

/-- A walk over items that are not negative ends with a size or none, after a turn for three items
each and one more at most. -/
theorem start_turns_of_nonneg :
    ∃ n, Walker.start.turns items (items.size / 3 + 1) = .error (.size n) := by
  rcases turns_of_nonneg hitems (u := .start) (Int.le_refl 0) (Int.natCast_nonneg _)
    (items.size / 3 + 1) with hend | ⟨v, -, hv, hlast⟩
  · exact hend
  · have hstart : Walker.start.position = 0 := rfl
    omega

end Nonnegative

end NativeCodec.Lz4

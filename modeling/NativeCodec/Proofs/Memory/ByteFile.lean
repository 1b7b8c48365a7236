import NativeCodec.Proofs.Memory.Growth

set_option autoImplicit false
set_option relaxedAutoImplicit false

namespace NativeCodec

/-- A fixed number of bytes, with a cursor that is never outside. -/
structure ByteFile where
  content : Bytes
  cursor : Nat
  cursor_le : cursor ≤ content.length

namespace ByteFile

/-- What is asked of a file. The bytes to write, and those to read over, are got from an object;
this may have failed. -/
inductive Request
  | write (data : Except Error Bytes)
  | read (count : Option Int)
  | readInto (out : Except Error Bytes)
  | seek (offset whence : Int)
  | contents
  deriving DecidableEq

/-- What a file answers: a number, some bytes, or how many bytes of an object were read over and
what it holds then. -/
inductive Answer
  | number (n : Nat)
  | bytes (data : Bytes)
  | filled (n : Nat) (out : Bytes)
  deriving DecidableEq

/-- A file of zeros with the cursor at its start. -/
def blank (size : Nat) : ByteFile := ⟨Bytes.zeros size, 0, Nat.zero_le _⟩

def left (f : ByteFile) : Nat := f.content.length - f.cursor

def next (f : ByteFile) (wanted : Nat) : Bytes :=
  (f.content.drop f.cursor).take (min wanted f.left)

/-- The file with the cursor behind these bytes. -/
def skip (f : ByteFile) (wanted : Nat) : ByteFile :=
  ⟨f.content, f.cursor + min wanted f.left, by
    have := f.cursor_le
    unfold left
    omega⟩

/-- The number of bytes that are wanted: without a count, or with a negative one, all. -/
def wanted (f : ByteFile) : Option Int → Nat
  | none => f.left
  | some n => if n < 0 then f.left else n.toNat

def overwrite (f : ByteFile) (data : Bytes) (h : f.cursor + data.length ≤ f.content.length) :
    ByteFile :=
  ⟨f.content.take f.cursor ++ data ++ f.content.drop (f.cursor + data.length),
    f.cursor + data.length, by
    simp only [List.length_append, List.length_take, List.length_drop]
    omega⟩

/-- Where a move of the cursor leads to: counted from the start, from the cursor, or from the
end. -/
def target? (f : ByteFile) (offset whence : Int) : Option Int :=
  if whence = 0 then some offset
  else if whence = 1 then some (f.cursor + offset)
  else if whence = 2 then some (f.content.length + offset)
  else none

def serve (f : ByteFile) : Request → Except Error Answer × ByteFile
  | .write (.error e) => (.error e, f)
  | .write (.ok data) =>
    if h : f.cursor + data.length ≤ f.content.length then
      (.ok (.number data.length), f.overwrite data h)
    else (.error .writePastEnd, f)
  | .read count => (.ok (.bytes (f.next (f.wanted count))), f.skip (f.wanted count))
  | .readInto (.error e) => (.error e, f)
  | .readInto (.ok out) =>
    let data := f.next out.length
    (.ok (.filled data.length (data ++ out.drop data.length)), f.skip out.length)
  | .seek offset whence =>
    match f.target? offset whence with
    | none => (.error (.unknownWhence whence), f)
    | some target =>
      if h : 0 ≤ target ∧ target ≤ f.content.length then
        (.ok (.number target.toNat), ⟨f.content, target.toNat, by omega⟩)
      else (.error .seekOutside, f)
  | .contents => (.ok (.bytes f.content), f)

theorem serve_error {f : ByteFile} {q : Request} {e : Error} (h : (f.serve q).1 = .error e) :
    (f.serve q).2 = f := by
  cases q with
  | write data =>
    cases data with
    | error e => rfl
    | ok data =>
      unfold serve at h ⊢
      dsimp only at h ⊢
      split
      · next hfits => rw [dif_pos hfits] at h; exact absurd h (by simp)
      · rfl
  | read count => exact absurd h (by simp [serve])
  | readInto out =>
    cases out with
    | error e => rfl
    | ok out => exact absurd h (by simp [serve])
  | seek offset whence =>
    unfold serve at h ⊢
    dsimp only at h ⊢
    cases htarget : f.target? offset whence with
    | none => rfl
    | some target =>
      rw [htarget] at h
      dsimp only at h ⊢
      split
      · next hin => rw [dif_pos hin] at h; exact absurd h (by simp)
      · rfl
  | contents => rfl

theorem length_overwrite (f : ByteFile) (data : Bytes)
    (h : f.cursor + data.length ≤ f.content.length) :
    (f.overwrite data h).content.length = f.content.length := by
  simp only [overwrite, List.length_append, List.length_take, List.length_drop]
  omega

theorem length_serve (f : ByteFile) (q : Request) :
    (f.serve q).2.content.length = f.content.length := by
  cases q with
  | write data =>
    cases data with
    | error e => rfl
    | ok data =>
      unfold serve
      dsimp only
      split
      · next hfits => exact f.length_overwrite data hfits
      · rfl
  | read count => rfl
  | readInto out =>
    cases out with
    | error e => rfl
    | ok out => rfl
  | seek offset whence =>
    unfold serve
    dsimp only
    cases f.target? offset whence with
    | none => rfl
    | some target =>
      dsimp only
      split
      · rfl
      · rfl
  | contents => rfl

@[simp] theorem length_next (f : ByteFile) (wanted : Nat) :
    (f.next wanted).length = min wanted f.left := by
  simp only [next, left, List.length_take, List.length_drop]
  omega

private theorem next_min (f : ByteFile) (wanted : Nat) :
    f.next (min wanted f.left) = f.next wanted := by
  unfold next
  rw [Nat.min_assoc, Nat.min_self]

private theorem skip_min (f : ByteFile) (wanted : Nat) :
    f.skip (min wanted f.left) = f.skip wanted := by
  unfold skip
  simp only [Nat.min_assoc, Nat.min_self]

end ByteFile

private theorem Argument.eq_of_flatView? {a : Argument} {v : View} (h : a.flatView? = .ok v) :
    a = .view v ∧ v.contiguous = true := by
  cases a with
  | view w =>
    unfold flatView? at h
    dsimp only at h
    split at h
    · next hc =>
      obtain rfl := Except.ok.inj h
      exact ⟨rfl, hc⟩
    · exact absurd h (by simp)
  | _ => exact absurd h (by simp [flatView?])

namespace DirectBuffer

open ByteFile

/-- What is done with a direct buffer, with the objects that are handed over. -/
inductive Operation
  | write (data : Argument)
  | read (count : Option Int)
  | readInto (out : Argument)
  | seek (offset whence : Int)
  | contents

/-- Does something with a direct buffer: the answer, the buffer and the memory then. -/
def perform (b : DirectBuffer) (m : Memory) :
    Operation → Except Error (Answer × DirectBuffer × Memory)
  | .write data => (b.writeFrom m data).map fun (n, b, m) => (.number n, b, m)
  | .read count => .ok (.bytes (b.read m count).1, (b.read m count).2, m)
  | .readInto out => (b.readInto m out).map fun (n, b, m) => (.filled n (out.content m), b, m)
  | .seek offset whence => (b.seek offset whence).map fun b => (.number b.position, b, m)
  | .contents => .ok (.bytes (b.contents m), b, m)

def over? (m : Memory) (out : Argument) : Except Error Bytes :=
  out.flatView?.bind fun v =>
    if v.readOnly then .error .notFlat else .ok (m.get v.place).bytes

def Operation.request (m : Memory) : Operation → Request
  | write data => .write (data.flat? m)
  | read count => .read count
  | readInto out => .readInto (over? m out)
  | seek offset whence => .seek offset whence
  | contents => .contents

def Operation.Spares (b : DirectBuffer) (m : Memory) : Operation → Prop
  | readInto (.view v) => v.place < m.storages.length ∧ v.place ≠ b.place
  | _ => True

/-- The bytes and the cursor of a buffer are those of a file. -/
structure Refines (b : DirectBuffer) (m : Memory) (f : ByteFile) : Prop where
  placed : b.place < m.storages.length
  fits : b.size ≤ m.size b.place
  content_eq : b.contents m = f.content
  position_eq : b.position = f.cursor

namespace Refines

variable {b : DirectBuffer} {m : Memory} {f : ByteFile}

theorem length_eq (h : Refines b m f) : f.content.length = b.size := by
  have hfits : b.size ≤ (m.get b.place).size := h.fits
  rw [← h.content_eq, contents, Storage.length_read]
  omega

theorem left_eq (h : Refines b m f) : f.left = b.remaining := by
  rw [ByteFile.left, remaining, h.length_eq, h.position_eq]

private theorem next_eq (h : Refines b m f) (wanted : Nat) :
    (m.get b.place).read b.position (min wanted b.remaining) = f.next wanted := by
  have hmin : min (min wanted b.remaining) (b.size - b.position) = min wanted b.remaining :=
    Nat.min_eq_left (Nat.min_le_right _ _)
  unfold ByteFile.next
  rw [h.left_eq, ← h.content_eq, ← h.position_eq, contents, Storage.read_eq, Storage.read_eq,
    List.drop_zero, List.drop_take, List.take_take, hmin]

theorem moveTo (h : Refines b m f) {position : Nat} (hb : position ≤ b.size)
    (hf : position ≤ f.content.length) :
    Refines (b.moveTo position hb) m ⟨f.content, position, hf⟩ :=
  ⟨h.placed, h.fits, h.content_eq, rfl⟩

private theorem take (h : Refines b m f) (wanted : Nat) :
    (b.take m wanted).1 = f.next wanted ∧ Refines (b.take m wanted).2 m (f.skip wanted) := by
  refine ⟨h.next_eq wanted, h.placed, h.fits, h.content_eq, ?_⟩
  change b.position + min wanted b.remaining = f.cursor + min wanted f.left
  rw [h.position_eq, h.left_eq]

private theorem set_other (h : Refines b m f) {place : Nat} (hne : place ≠ b.place) (s : Storage) :
    Refines b (m.set place s) f := by
  have hget : (m.set place s).get b.place = m.get b.place := Memory.get_set_of_ne m s hne
  refine ⟨?_, ?_, ?_, h.position_eq⟩
  · change b.place < (m.storages.set place s).length
    rw [List.length_set]
    exact h.placed
  · change b.size ≤ ((m.set place s).get b.place).size
    rw [hget]
    exact h.fits
  · unfold contents
    rw [hget]
    exact h.content_eq

theorem append (h : Refines b m f) {m' : Memory} {more : List Storage}
    (hm : m'.storages = m.storages ++ more) : Refines b m' f := by
  have hget : m'.get b.place = m.get b.place := by
    unfold Memory.get
    rw [hm, List.getD_eq_getElem?_getD, List.getElem?_append_left h.placed,
      List.getD_eq_getElem?_getD]
  refine ⟨?_, ?_, ?_, h.position_eq⟩
  · rw [hm, List.length_append]
    exact Nat.lt_add_right _ h.placed
  · change b.size ≤ (m'.get b.place).size
    rw [hget]
    exact h.fits
  · unfold contents
    rw [hget]
    exact h.content_eq

theorem overwrite (h : Refines b m f) {data : Bytes} (hb : b.position + data.length ≤ b.size)
    (hf : f.cursor + data.length ≤ f.content.length) :
    Refines (b.moveTo (b.position + data.length) hb)
      (m.set b.place ((m.get b.place).write b.position data)) (f.overwrite data hf) := by
  have hget : (m.set b.place ((m.get b.place).write b.position data)).get b.place =
      (m.get b.place).write b.position data := Memory.get_set_self m _ b.place h.placed
  have hfits : b.size ≤ (m.get b.place).size := h.fits
  refine ⟨?_, ?_, ?_, ?_⟩
  · change b.place < (m.storages.set b.place _).length
    rw [List.length_set]
    exact h.placed
  · change b.size ≤ ((m.set b.place _).get b.place).size
    rw [hget, Storage.size_write]
    exact hfits
  · change ((m.set b.place _).get b.place).read 0 b.size = _
    have hfile : f.content = (m.get b.place).bytes.take b.size := by
      rw [← h.content_eq, contents, Storage.read_eq, List.drop_zero]
    have hroom : b.position + data.length ≤ (m.get b.place).size := Nat.le_trans hb hfits
    have hbytes := Storage.bytes_write (m.get b.place) hroom
    rw [hget, Storage.read_eq, List.drop_zero, hbytes]
    change _ = f.content.take f.cursor ++ data ++ f.content.drop (f.cursor + data.length)
    have hlength : ((m.get b.place).bytes.take b.position ++ data).length =
        b.position + data.length := by
      rw [List.length_append, List.length_take, Storage.length_bytes]
      omega
    rw [← h.position_eq, hfile, List.take_take, List.drop_take, Nat.min_eq_left b.position_le,
      List.take_append, hlength, List.take_of_length_le (hlength ▸ hb)]
  · change b.position + data.length = f.cursor + data.length
    rw [h.position_eq]

end Refines

/-- A new buffer has a storage of its own, with room for one byte at least. -/
theorem create_eq_ok {m m' : Memory} {b : DirectBuffer} {size : Int}
    (h : create m size = .ok (b, m')) :
    ∃ n : Nat, max size 1 = n ∧ 0 ≤ size ∧ b.place = m.storages.length ∧
      b.size = size.toNat ∧ b.position = 0 ∧ m' = (m.add (.fresh n)).2 := by
  unfold create at h
  split at h
  · exact absurd h (by simp)
  · next hsize =>
    unfold Memory.allocate at h
    cases hcheck : m.checkSize (max size 1) with
    | error e => simp [hcheck, Except.map] at h
    | ok n =>
      simp only [hcheck, Except.map, Except.ok.injEq, Prod.mk.injEq] at h
      obtain ⟨rfl, rfl⟩ := h
      obtain ⟨hn, -⟩ := Memory.eq_of_checkSize hcheck
      exact ⟨n, hn, Int.not_lt.mp hsize, rfl, rfl, rfl, rfl⟩

theorem refines_create {m m' : Memory} {b : DirectBuffer} {size : Int}
    (h : create m size = .ok (b, m')) : Refines b m' (.blank size.toNat) := by
  obtain ⟨n, hn, -, hplace, hsize, hposition, rfl⟩ := create_eq_ok h
  have hget : (m.add (.fresh n)).2.get b.place = .fresh n := by
    rw [hplace]
    exact m.get_add_self (.fresh n)
  have hle : size.toNat ≤ n := by omega
  have hplaced : b.place < (m.storages ++ [Storage.fresh n]).length := by simp [hplace]
  refine ⟨hplaced, ?_, ?_, hposition⟩
  · change b.size ≤ ((m.add (.fresh n)).2.get b.place).size
    rw [hget, hsize]
    exact hle
  · rw [contents, hget, Storage.read_eq, Storage.bytes_fresh, List.drop_zero, hsize, Bytes.zeros,
      List.take_replicate, Nat.min_eq_left hle]
    rfl

theorem ofArgument_eq_ok {m m' : Memory} {b : DirectBuffer} {data : Argument}
    (h : ofArgument m data = .ok (b, m')) :
    ∃ bytes : Storage, b.place = m.storages.length ∧ b.size ≤ bytes.size ∧
      (m.add bytes).2.Larger m' := by
  unfold ofArgument at h
  cases hdata : data.flat? m with
  | error e => simp [hdata, bind, Except.bind] at h
  | ok bytes =>
    cases hcreate : create m bytes.length with
    | error e => simp [hdata, hcreate, bind, Except.bind] at h
    | ok result =>
      obtain ⟨b', m₁⟩ := result
      obtain ⟨n, hn, -, hplace, hsize, -, rfl⟩ := create_eq_ok hcreate
      simp only [hdata, hcreate, bind, Except.bind, pure, Except.pure, Except.ok.injEq,
        Prod.mk.injEq] at h
      obtain ⟨rfl, rfl⟩ := h
      refine ⟨.fresh n, hplace, ?_, Memory.larger_write _ _ _⟩
      change b'.size ≤ n
      omega

/-- What came of an operation: the same as a file answers, and the same again afterwards. After an
error the buffer, and the memory, are as they were. -/
def Agrees (b : DirectBuffer) (m : Memory) (answer : Except Error Answer × ByteFile) :
    Except Error (Answer × DirectBuffer × Memory) → Prop
  | .error e => answer.1 = .error e ∧ Refines b m answer.2
  | .ok (a, b', m') => answer.1 = .ok a ∧ Refines b' m' answer.2

variable {b : DirectBuffer} {m : Memory} {f : ByteFile}

private theorem agrees_write (h : Refines b m f) (data : Argument) :
    Agrees b m (f.serve (.write (data.flat? m))) (b.perform m (.write data)) := by
  have hperform : b.perform m (.write data) =
      ((data.flat? m).bind (b.write m)).map fun (n, b, m) => (.number n, b, m) := rfl
  rw [hperform]
  cases data.flat? m with
  | error e => exact ⟨rfl, h⟩
  | ok data =>
    unfold ByteFile.serve write
    dsimp only [Except.bind]
    by_cases hb : b.position + data.length ≤ b.size
    · have hf : f.cursor + data.length ≤ f.content.length := by
        rw [h.length_eq, ← h.position_eq]
        exact hb
      rw [dif_pos hb, dif_pos hf]
      exact ⟨rfl, h.overwrite hb hf⟩
    · have hf : ¬f.cursor + data.length ≤ f.content.length := by
        rw [h.length_eq, ← h.position_eq]
        exact hb
      rw [dif_neg hb, dif_neg hf]
      exact ⟨rfl, h⟩

theorem agrees_read (h : Refines b m f) (count : Option Int) :
    Agrees b m (f.serve (.read count)) (b.perform m (.read count)) := by
  -- the buffer cuts the count off before it reads, the file while it reads
  have hwanted : b.readCount count = min (f.wanted count) f.left := by
    cases count with
    | none => rw [ByteFile.wanted, Nat.min_self, h.left_eq, readCount]
    | some n =>
      rw [readCount, ByteFile.wanted, h.left_eq]
      split
      · rw [Nat.min_self]
      · rfl
  obtain ⟨hread, hafter⟩ := h.take (b.readCount count)
  rw [hwanted, f.next_min] at hread
  rw [hwanted, f.skip_min] at hafter
  change Agrees b m (.ok (.bytes (f.next (f.wanted count))), f.skip (f.wanted count))
    (.ok (.bytes (b.take m (b.readCount count)).1, (b.take m (b.readCount count)).2, m))
  rw [hwanted, ← hread]
  exact ⟨rfl, hafter⟩

private theorem readInto_of_error {out : Argument} {e : Error} (h : out.flatView? = .error e) :
    b.readInto m out = .error e := by
  unfold readInto
  rw [h]
  rfl

theorem readInto_of_ok {out : Argument} {v : View} (h : out.flatView? = .ok v) :
    b.readInto m out = if v.readOnly then .error .notFlat else
      .ok ((b.take m (m.size v.place)).1.length, (b.take m (m.size v.place)).2,
        m.set v.place ((m.get v.place).write 0 (b.take m (m.size v.place)).1)) := by
  unfold readInto
  rw [h]
  dsimp only [bind, Except.bind]
  by_cases hreadOnly : v.readOnly = true
  · rw [if_pos hreadOnly, if_pos hreadOnly]
    rfl
  · rw [if_neg hreadOnly, if_neg hreadOnly]
    rfl

theorem agrees_readInto_view (h : Refines b m f) {v : View} (hreadOnly : v.readOnly = false)
    (hc : v.contiguous = true) (hplaced : v.place < m.storages.length) (hne : v.place ≠ b.place) :
    Agrees b m (f.serve (.readInto (over? m (.view v)))) (b.perform m (.readInto (.view v))) := by
  have hflat : (Argument.view v).flatView? = .ok v := if_pos hc
  have hover : over? m (.view v) = .ok (m.get v.place).bytes := by
    rw [over?, hflat]
    exact if_neg (by simp [hreadOnly])
  have hsize : (m.get v.place).bytes.length = m.size v.place := Storage.length_bytes _
  let data := f.next (m.size v.place)
  let m' := m.set v.place ((m.get v.place).write 0 data)
  obtain ⟨hread, hafter⟩ := h.take (m.size v.place)
  have hperform : b.perform m (.readInto (.view v)) =
      .ok (.filled data.length (Argument.content m' (.view v)),
        (b.take m (m.size v.place)).2, m') := by
    change (b.readInto m (.view v)).map _ = _
    rw [readInto_of_ok hflat, if_neg (by simp [hreadOnly]), hread]
    rfl
  have hcontent : Argument.content m' (.view v) =
      data ++ (m.get v.place).bytes.drop data.length := by
    have hfits : 0 + data.length ≤ (m.get v.place).size := by
      rw [Nat.zero_add, f.length_next]
      exact Nat.min_le_left _ _
    change (m'.get v.place).bytes = _
    rw [Memory.get_set_self m _ v.place hplaced, Storage.bytes_write _ hfits, List.take_zero,
      List.nil_append, Nat.zero_add]
  rw [hover, hperform, hcontent]
  change Agrees b m (.ok (.filled _ _), f.skip (m.get v.place).bytes.length) _
  rw [hsize]
  exact ⟨rfl, hafter.set_other hne _⟩

private theorem agrees_readInto (h : Refines b m f) {out : Argument}
    (hout : (Operation.readInto out).Spares b m) :
    Agrees b m (f.serve (.readInto (over? m out))) (b.perform m (.readInto out)) := by
  have hrefused : ∀ e, over? m out = .error e → b.readInto m out = .error e →
      Agrees b m (f.serve (.readInto (over? m out))) (b.perform m (.readInto out)) := by
    intro e hover hread
    have hperform : b.perform m (.readInto out) = .error e := by
      change (b.readInto m out).map _ = _
      rw [hread]
      rfl
    rw [hover, hperform]
    exact ⟨rfl, h⟩
  cases hflat : out.flatView? with
  | error e => exact hrefused e (by rw [over?, hflat]; rfl) (readInto_of_error hflat)
  | ok v =>
    cases hreadOnly : v.readOnly with
    | true =>
      refine hrefused .notFlat ?_ ?_
      · rw [over?, hflat]
        exact if_pos hreadOnly
      · rw [readInto_of_ok hflat, if_pos hreadOnly]
    | false =>
      obtain ⟨rfl, hc⟩ := Argument.eq_of_flatView? hflat
      exact agrees_readInto_view h hreadOnly hc hout.1 hout.2

private theorem agrees_seek (h : Refines b m f) (offset whence : Int) :
    Agrees b m (f.serve (.seek offset whence)) (b.perform m (.seek offset whence)) := by
  have htarget : b.target offset whence = match f.target? offset whence with
      | some target => .ok target
      | none => .error (.unknownWhence whence) := by
    unfold target ByteFile.target?
    rw [h.length_eq, h.position_eq]
    by_cases h₀ : whence = 0
    · rw [if_pos h₀, if_pos h₀]
    · by_cases h₁ : whence = 1
      · rw [if_neg h₀, if_neg h₀, if_pos h₁, if_pos h₁]
      · by_cases h₂ : whence = 2
        · rw [if_neg h₀, if_neg h₀, if_neg h₁, if_neg h₁, if_pos h₂, if_pos h₂]
        · rw [if_neg h₀, if_neg h₀, if_neg h₁, if_neg h₁, if_neg h₂, if_neg h₂]
  unfold ByteFile.serve perform seek
  dsimp only
  rw [htarget]
  cases f.target? offset whence with
  | none => exact ⟨rfl, h⟩
  | some target =>
    dsimp only [Except.bind]
    by_cases hb : 0 ≤ target ∧ target ≤ b.size
    · have hf : 0 ≤ target ∧ target ≤ f.content.length := by rwa [h.length_eq]
      rw [dif_pos hb, dif_pos hf]
      exact ⟨rfl, h.moveTo _ _⟩
    · have hf : ¬(0 ≤ target ∧ target ≤ f.content.length) := by rwa [h.length_eq]
      rw [dif_neg hb, dif_neg hf]
      exact ⟨rfl, h⟩

/-- A buffer answers like the file that it refines, whatever is done with it. -/
theorem Refines.perform (h : Refines b m f) {op : Operation} (hop : op.Spares b m) :
    Agrees b m (f.serve (op.request m)) (b.perform m op) := by
  cases op with
  | write data => exact agrees_write h data
  | read count => exact agrees_read h count
  | readInto out => exact agrees_readInto h hop
  | seek offset whence => exact agrees_seek h offset whence
  | contents =>
    refine ⟨?_, h⟩
    rw [h.content_eq]
    rfl

theorem perform_eq_ok {op : Operation} {a : Answer} {b' : DirectBuffer} {m' : Memory}
    (h : b.perform m op = .ok (a, b', m')) :
    b'.place = b.place ∧ b'.size = b.size ∧ m.Larger m' := by
  cases op with
  | write data =>
    change ((data.flat? m).bind (b.write m)).map _ = _ at h
    cases hdata : data.flat? m with
    | error e => simp [hdata, Except.bind, Except.map] at h
    | ok data =>
      rw [hdata] at h
      change (b.write m data).map _ = _ at h
      unfold write at h
      split at h
      · simp only [Except.map, Except.ok.injEq, Prod.mk.injEq] at h
        obtain ⟨-, rfl, rfl⟩ := h
        exact ⟨rfl, rfl, Memory.larger_set (Nat.le_of_eq (Storage.size_write ..).symm)⟩
      · simp [Except.map] at h
  | read count =>
    simp only [perform, Except.ok.injEq, Prod.mk.injEq] at h
    obtain ⟨-, rfl, rfl⟩ := h
    exact ⟨rfl, rfl, Memory.Larger.refl m⟩
  | readInto out =>
    change (b.readInto m out).map _ = _ at h
    cases hflat : out.flatView? with
    | error e => simp [readInto_of_error hflat, Except.map] at h
    | ok v =>
      rw [readInto_of_ok hflat] at h
      split at h
      · simp [Except.map] at h
      · simp only [Except.map, Except.ok.injEq, Prod.mk.injEq] at h
        obtain ⟨-, rfl, rfl⟩ := h
        exact ⟨rfl, rfl, Memory.larger_set (Nat.le_of_eq (Storage.size_write ..).symm)⟩
  | seek offset whence =>
    change (b.seek offset whence).map _ = _ at h
    unfold seek at h
    cases htarget : b.target offset whence with
    | error e => simp [htarget, Except.bind, Except.map] at h
    | ok target =>
      simp only [htarget, Except.bind] at h
      split at h
      · simp only [Except.map, Except.ok.injEq, Prod.mk.injEq] at h
        obtain ⟨-, rfl, rfl⟩ := h
        exact ⟨rfl, rfl, Memory.Larger.refl m⟩
      · simp [Except.map] at h
  | contents =>
    simp only [perform, Except.ok.injEq, Prod.mk.injEq] at h
    obtain ⟨-, rfl, rfl⟩ := h
    exact ⟨rfl, rfl, Memory.Larger.refl m⟩

end DirectBuffer

end NativeCodec

import NativeCodec.Proofs.Memory.ByteFile

/-!
Writing and reading in pieces.

A direct buffer is written in pieces or at once with the same outcome
(`DirectBuffer.Refines.writeAll`), and what is read in pieces is what is ahead of the cursor, cut up
(`DirectBuffer.Refines.fetchAll`). `chunking_immaterial` says both, and that a buffer gives back
what it was made of.
-/

set_option autoImplicit false
set_option relaxedAutoImplicit false

namespace NativeCodec

/-- Cuts bytes up: at each limit as many are taken as it allows, or all without one. -/
def portions : Bytes → List (Option Nat) → List Bytes
  | _, [] => []
  | rest, limit :: limits =>
    rest.take (limit.getD rest.length) :: portions (rest.drop (limit.getD rest.length)) limits

def overall : List (Option Nat) → Option Nat
  | [] => some 0
  | limit :: limits => limit.bind fun n => (overall limits).map (n + ·)

private theorem flatten_portions (rest : Bytes) (limits : List (Option Nat)) :
    (portions rest limits).flatten = rest.take ((overall limits).getD rest.length) := by
  induction limits generalizing rest with
  | nil => rfl
  | cons limit limits ih =>
    rw [portions, List.flatten_cons, ih, List.length_drop]
    cases limit with
    | none =>
      rw [overall, Option.bind_none, Option.getD_none, List.drop_length, List.take_nil,
        List.append_nil]
    | some n =>
      rw [overall, Option.bind_some, Option.getD_some]
      cases overall limits with
      | none =>
        rw [Option.map_none, Option.getD_none, Option.getD_none, List.take_length,
          ← List.length_drop, List.take_length, List.take_append_drop]
      | some k => rw [Option.map_some, Option.getD_some, Option.getD_some, List.take_add]

private theorem portions_nil {limits : List (Option Nat)} {piece : Bytes}
    (h : piece ∈ portions [] limits) :
    piece = [] := by
  induction limits with
  | nil => exact absurd h List.not_mem_nil
  | cons limit limits ih =>
    rw [portions, List.take_nil, List.drop_nil] at h
    rcases List.mem_cons.mp h with rfl | hrest
    · rfl
    · exact ih hrest

namespace ByteFile

variable {f : ByteFile}

def rest (f : ByteFile) : Bytes := f.content.drop f.cursor

private theorem length_rest (f : ByteFile) : f.rest.length = f.left := List.length_drop

private theorem next_eq_take (f : ByteFile) (wanted : Nat) :
    f.next wanted = f.rest.take wanted := by
  unfold next
  rw [← f.length_rest]
  exact (List.take_eq_take_min).symm

private theorem rest_skip (f : ByteFile) (wanted : Nat) :
    (f.skip wanted).rest = f.rest.drop wanted := by
  change f.content.drop (f.cursor + min wanted f.left) = f.rest.drop wanted
  rw [← List.drop_drop, ← f.length_rest]
  change f.rest.drop (min wanted f.rest.length) = f.rest.drop wanted
  rcases Nat.le_total wanted f.rest.length with hle | hle
  · rw [Nat.min_eq_left hle]
  · rw [Nat.min_eq_right hle, List.drop_length, List.drop_of_length_le hle]

private theorem cursor_skip (f : ByteFile) (wanted : Nat) :
    (f.skip wanted).cursor = f.cursor + (f.rest.take wanted).length := by
  rw [List.length_take, f.length_rest]
  rfl

private theorem eq_of_content_cursor {f g : ByteFile} (hcontent : f.content = g.content)
    (hcursor : f.cursor = g.cursor) : f = g := by
  obtain ⟨content, cursor, h⟩ := f
  obtain rfl : content = g.content := hcontent
  obtain rfl : cursor = g.cursor := hcursor
  rfl

private theorem overwrite_nil (h : f.cursor + ([] : Bytes).length ≤ f.content.length) :
    f.overwrite [] h = f := by
  refine eq_of_content_cursor ?_ rfl
  change f.content.take f.cursor ++ [] ++ f.content.drop f.cursor = f.content
  rw [List.append_nil, List.take_append_drop]

private theorem content_overwrite_blank {size : Nat} {data : Bytes}
    (h : (blank size).cursor + data.length ≤ (blank size).content.length) :
    ((blank size).overwrite data h).content = data ++ Bytes.zeros (size - data.length) := by
  change (Bytes.zeros size).take 0 ++ data ++ (Bytes.zeros size).drop (0 + data.length) = _
  rw [List.take_zero, List.nil_append, Nat.zero_add, Bytes.zeros, List.drop_replicate]
  rfl

private theorem overwrite_overwrite {first second : Bytes}
    (h : f.cursor + first.length ≤ f.content.length)
    (h' : (f.overwrite first h).cursor + second.length ≤ (f.overwrite first h).content.length)
    (hboth : f.cursor + (first ++ second).length ≤ f.content.length) :
    (f.overwrite first h).overwrite second h' = f.overwrite (first ++ second) hboth := by
  have hbefore : (f.content.take f.cursor ++ first).length = f.cursor + first.length := by
    rw [List.length_append, List.length_take, Nat.min_eq_left f.cursor_le]
  have hlength : (first ++ second).length = first.length + second.length := List.length_append
  refine eq_of_content_cursor ?_ ?_
  · change (f.content.take f.cursor ++ first ++ f.content.drop (f.cursor + first.length)).take
        (f.cursor + first.length) ++ second ++
      (f.content.take f.cursor ++ first ++ f.content.drop (f.cursor + first.length)).drop
        (f.cursor + first.length + second.length) =
      f.content.take f.cursor ++ (first ++ second) ++
        f.content.drop (f.cursor + (first ++ second).length)
    rw [← hbefore, List.take_left, ← List.drop_drop, List.drop_left, List.drop_drop, hbefore, hlength,
      Nat.add_assoc, List.append_assoc _ first second]
  · change f.cursor + first.length + second.length = f.cursor + (first ++ second).length
    rw [hlength, Nat.add_assoc]

end ByteFile

/-- The bytes that a view shows. -/
def View.bytes (v : View) (m : Memory) : Bytes := (m.get v.place).bytes

/-- A view shows its bytes side by side, in a storage in which a buffer has none. -/
structure View.Beside (v : View) (b : DirectBuffer) (m : Memory) : Prop where
  flat : v.contiguous = true
  placed : v.place < m.storages.length
  apart : v.place ≠ b.place

structure Memory.SameSizes (m m' : Memory) : Prop where
  length_eq : m'.storages.length = m.storages.length
  size_eq : ∀ place, m'.size place = m.size place

namespace Memory.SameSizes

variable {m m' m'' : Memory}

private theorem refl (m : Memory) : SameSizes m m := ⟨rfl, fun _ => rfl⟩

private theorem trans (h : SameSizes m m') (h' : SameSizes m' m'') : SameSizes m m'' where
  length_eq := h'.length_eq.trans h.length_eq
  size_eq place := (h'.size_eq place).trans (h.size_eq place)

private theorem set_write (m : Memory) (place offset : Nat) (data : Bytes) :
    SameSizes m (m.set place ((m.get place).write offset data)) where
  length_eq := m.length_set place _
  size_eq := m.size_write ⟨.managed place, offset⟩ data

private theorem beside {v : View} {b b' : DirectBuffer} (h : SameSizes m m')
    (hplace : b'.place = b.place)
    (hv : v.Beside b m) : v.Beside b' m' where
  flat := hv.flat
  placed := h.length_eq ▸ hv.placed
  apart := hplace ▸ hv.apart

end Memory.SameSizes

namespace DirectBuffer

variable {b : DirectBuffer} {m : Memory} {f : ByteFile}

def writeAll (b : DirectBuffer) (m : Memory) : List View → Except Error (DirectBuffer × Memory)
  | [] => .ok (b, m)
  | v :: vs => (b.writeFrom m (.view v)).bind fun (_, b, m) => writeAll b m vs

/-- What bytes are got by: a read, or a read into what a view shows. -/
inductive Fetch
  | read (count : Option Int)
  | into (v : View)

namespace Fetch

def operation : Fetch → Operation
  | read count => .read count
  | into v => .readInto (.view v)

/-- How many bytes are got at most; with no count, or a negative one, there is no limit. -/
def limit (m : Memory) : Fetch → Option Nat
  | read none => none
  | read (some n) => if n < 0 then none else some n.toNat
  | into v => some (m.size v.place)

/-- What is read into may be written, and is not the buffer itself. -/
def Possible (b : DirectBuffer) (m : Memory) : Fetch → Prop
  | read _ => True
  | into v => v.readOnly = false ∧ v.Beside b m

private theorem limit_congr {m' : Memory} (h : m.SameSizes m') (q : Fetch) :
    q.limit m' = q.limit m := by
  cases q with
  | read count =>
    cases count with
    | none => rfl
    | some n => rfl
  | into v => exact congrArg some (h.size_eq v.place)

private theorem Possible.congr {b' : DirectBuffer} {m' : Memory} {q : Fetch} (hq : q.Possible b m)
    (h : m.SameSizes m') (hplace : b'.place = b.place) : q.Possible b' m' := by
  cases q with
  | read count => trivial
  | into v => exact ⟨hq.1, h.beside hplace hq.2⟩

end Fetch

def obtained : ByteFile.Answer → Bytes
  | .bytes data => data
  | .filled n out => out.take n
  | .number _ => []

def fetchAll (b : DirectBuffer) (m : Memory) :
    List Fetch → Except Error (List Bytes × DirectBuffer × Memory)
  | [] => .ok ([], b, m)
  | q :: qs => (b.perform m q.operation).bind fun (answer, b, m) =>
    (fetchAll b m qs).map fun (pieces, b, m) => (obtained answer :: pieces, b, m)

namespace Refines

private theorem of_placed (hplaced : b.place < m.storages.length)
    (hfits : b.size ≤ m.size b.place) :
    ∃ f : ByteFile, Refines b m f ∧ f.rest = (b.contents m).drop b.position := by
  have hlength : (b.contents m).length = b.size := by
    have hsize : b.size ≤ (m.get b.place).size := hfits
    rw [contents, Storage.length_read]
    omega
  exact ⟨⟨b.contents m, b.position, hlength ▸ b.position_le⟩, ⟨hplaced, hfits, rfl, rfl⟩, rfl⟩

private theorem rest_eq_nil (h : Refines b m f) (hend : b.position = b.size) : f.rest = [] := by
  have hcursor : f.content.length = f.cursor := by
    rw [h.length_eq, ← h.position_eq, hend]
  exact List.drop_of_length_le (Nat.le_of_eq hcursor)

private theorem writeView (h : Refines b m f) {v : View} (hv : v.Beside b m)
    (hfits : f.cursor + (v.bytes m).length ≤ f.content.length) :
    ∃ b' m', b.writeFrom m (.view v) = .ok ((v.bytes m).length, b', m') ∧
      Refines b' m' (f.overwrite (v.bytes m) hfits) ∧ b'.place = b.place ∧ m.SameSizes m' ∧
      ∀ other, other ≠ b.place → m'.get other = m.get other := by
  have hview : (Argument.view v).flatView? = .ok v := if_pos hv.flat
  have hflat : (Argument.view v).flat? m = .ok (v.bytes m) := by
    unfold Argument.flat?
    rw [hview]
    rfl
  have hb : b.position + (v.bytes m).length ≤ b.size := by
    rw [h.position_eq, ← h.length_eq]
    exact hfits
  have hwrite : b.writeFrom m (.view v) = b.write m (v.bytes m) := by
    change ((Argument.view v).flat? m).bind (b.write m) = _
    rw [hflat]
    rfl
  unfold write at hwrite
  rw [dif_pos hb] at hwrite
  exact ⟨_, _, hwrite, h.overwrite hb hfits, rfl, .set_write m b.place b.position _,
    fun other hne => m.get_set_of_ne _ hne.symm⟩

theorem writeAll (h : Refines b m f) {vs : List View} (hvs : ∀ v ∈ vs, v.Beside b m)
    (hfits : f.cursor + (vs.map (·.bytes m)).flatten.length ≤ f.content.length) :
    ∃ b' m', b.writeAll m vs = .ok (b', m') ∧
      Refines b' m' (f.overwrite (vs.map (·.bytes m)).flatten hfits) ∧ b'.place = b.place := by
  induction vs generalizing b m f with
  | nil =>
    have hsame : f.overwrite (([] : List View).map (·.bytes m)).flatten hfits = f :=
      f.overwrite_nil hfits
    rw [hsame]
    exact ⟨b, m, rfl, h, rfl⟩
  | cons v vs ih =>
    have hv := hvs v List.mem_cons_self
    have hlength : ((v :: vs).map (·.bytes m)).flatten.length =
        (v.bytes m).length + (vs.map (·.bytes m)).flatten.length := List.length_append
    have hfirst : f.cursor + (v.bytes m).length ≤ f.content.length := by omega
    obtain ⟨b₁, m₁, hwrite, hafter, hplace, hsizes, hothers⟩ := h.writeView hv hfirst
    -- the other views are not where the buffer is, so what they show is still the same
    have hbytes : vs.map (·.bytes m₁) = vs.map (·.bytes m) := by
      refine List.map_congr_left fun w hw => ?_
      have hapart := (hvs w (List.mem_cons_of_mem v hw)).apart
      exact congrArg Storage.bytes (hothers w.place hapart)
    have hrest : (f.overwrite (v.bytes m) hfirst).cursor + (vs.map (·.bytes m₁)).flatten.length ≤
        (f.overwrite (v.bytes m) hfirst).content.length := by
      rw [hbytes, f.length_overwrite]
      change f.cursor + (v.bytes m).length + _ ≤ _
      omega
    obtain ⟨b', m', hwrites, hrefines, hplace'⟩ := ih hafter
      (fun w hw => hsizes.beside hplace (hvs w (List.mem_cons_of_mem v hw))) hrest
    refine ⟨b', m', ?_, ?_, hplace'.trans hplace⟩
    · change (b.writeFrom m (.view v)).bind _ = _
      rw [hwrite]
      exact hwrites
    · rw [ByteFile.overwrite_overwrite hfirst hrest (by rw [hbytes]; exact hfits)] at hrefines
      simp only [hbytes] at hrefines
      exact hrefines

private theorem fetch (h : Refines b m f) {q : Fetch} (hq : q.Possible b m) :
    ∃ answer b' m', b.perform m q.operation = .ok (answer, b', m') ∧
      obtained answer = f.rest.take ((q.limit m).getD f.rest.length) ∧
      Refines b' m' (f.skip ((q.limit m).getD f.rest.length)) ∧ b'.place = b.place ∧
      m.SameSizes m' := by
  cases q with
  | read count =>
    have hwanted : f.wanted count = ((Fetch.read count).limit m).getD f.rest.length := by
      rw [f.length_rest]
      cases count with
      | none => rfl
      | some n =>
        unfold ByteFile.wanted Fetch.limit
        dsimp only
        split
        · rfl
        · rfl
    obtain ⟨hanswer, hafter⟩ := agrees_read h count
    rw [← hwanted, ← f.next_eq_take]
    have hbytes : ByteFile.Answer.bytes (f.next (f.wanted count)) = .bytes (b.read m count).1 :=
      Except.ok.inj hanswer
    exact ⟨_, _, m, rfl, (ByteFile.Answer.bytes.inj hbytes).symm, hafter, rfl, .refl m⟩
  | into v =>
    obtain ⟨hreadOnly, hv⟩ := hq
    have hview : (Argument.view v).flatView? = .ok v := if_pos hv.flat
    have hwritable : ¬v.readOnly = true := Bool.eq_false_iff.mp hreadOnly
    have hover : over? m (.view v) = .ok (v.bytes m) := by
      rw [over?, hview]
      exact if_neg hwritable
    have hperform : b.perform m (.readInto (.view v)) =
        (b.readInto m (.view v)).map fun (n, b, m) => (.filled n (v.bytes m), b, m) := rfl
    rw [readInto_of_ok hview, if_neg hwritable] at hperform
    have hagrees := agrees_readInto_view h hreadOnly hv.flat hv.placed hv.apart
    rw [hover, hperform] at hagrees
    obtain ⟨hanswer, hafter⟩ := hagrees
    have hsize : (v.bytes m).length = m.size v.place := Storage.length_bytes _
    have hlimit : ((Fetch.into v).limit m).getD f.rest.length = (v.bytes m).length := hsize.symm
    rw [hlimit, ← f.next_eq_take]
    refine ⟨_, _, _, hperform, ?_, hafter, rfl, .set_write m v.place 0 _⟩
    rw [← Except.ok.inj hanswer]
    exact List.take_left

/-- What is got again and again is what is ahead of the cursor, cut up. -/
theorem fetchAll (h : Refines b m f) {qs : List Fetch} (hqs : ∀ q ∈ qs, q.Possible b m) :
    ∃ b' m' f', b.fetchAll m qs = .ok (portions f.rest (qs.map (·.limit m)), b', m') ∧
      Refines b' m' f' ∧ f'.content = f.content ∧
      f'.cursor = f.cursor + (portions f.rest (qs.map (·.limit m))).flatten.length ∧
      b'.place = b.place ∧ m.SameSizes m' := by
  induction qs generalizing b m f with
  | nil => exact ⟨b, m, f, rfl, h, rfl, rfl, rfl, .refl m⟩
  | cons q qs ih =>
    obtain ⟨answer, b₁, m₁, hperform, hobtained, hafter, hplace, hsizes⟩ :=
      h.fetch (hqs q List.mem_cons_self)
    have hlimits : qs.map (·.limit m₁) = qs.map (·.limit m) :=
      List.map_congr_left fun q _ => q.limit_congr hsizes
    have hrest : ∀ q ∈ qs, q.Possible b₁ m₁ := fun q hq =>
      (hqs q (List.mem_cons_of_mem _ hq)).congr hsizes hplace
    obtain ⟨b', m', f', hfetches, hrefines, hcontent, hcursor, hplace', hsizes'⟩ := ih hafter hrest
    rw [hlimits, f.rest_skip] at hfetches hcursor
    refine ⟨b', m', f', ?_, hrefines, hcontent, ?_, hplace'.trans hplace, hsizes.trans hsizes'⟩
    · change (b.perform m q.operation).bind _ = _
      rw [hperform]
      dsimp only [Except.bind]
      rw [hfetches, hobtained]
      rfl
    · rw [hcursor, f.cursor_skip, List.map_cons, portions, List.flatten_cons, List.length_append,
        Nat.add_assoc]

private theorem eq_of_place {b' : DirectBuffer} {m' : Memory} (h : Refines b m f)
    (h' : Refines b' m' f)
    (hplace : b'.place = b.place) : b' = b := by
  have hsize : b'.size = b.size := h'.length_eq.symm.trans h.length_eq
  have hposition : b'.position = b.position := h'.position_eq.trans h.position_eq.symm
  obtain ⟨place, size, position, _⟩ := b
  obtain ⟨place', size', position', _⟩ := b'
  obtain rfl : place' = place := hplace
  obtain rfl : size' = size := hsize
  obtain rfl : position' = position := hposition
  rfl

private theorem writeAll_whole (h : Refines b m f) {vs : List View} (hvs : ∀ v ∈ vs, v.Beside b m)
    (hfits : f.cursor + (vs.map (·.bytes m)).flatten.length ≤ f.content.length) {whole : View}
    (hwhole : whole.Beside b m) (hbytes : whole.bytes m = (vs.map (·.bytes m)).flatten)
    {b' : DirectBuffer} {m' : Memory} (hwrites : b.writeAll m vs = .ok (b', m')) :
    ∃ m'', b.writeFrom m (.view whole) = .ok ((whole.bytes m).length, b', m'') ∧
      b'.contents m'' = b'.contents m' := by
  obtain ⟨b₁, m₁, hwrites₁, hrefines, hplace⟩ := h.writeAll hvs hfits
  obtain ⟨rfl, rfl⟩ := Prod.mk.inj (Except.ok.inj (hwrites.symm.trans hwrites₁))
  obtain ⟨b'', m'', hwrite, hrefines', hplace', -⟩ := h.writeView hwhole (by rwa [hbytes])
  simp only [hbytes] at hrefines'
  obtain rfl := hrefines.eq_of_place hrefines' (hplace'.trans hplace.symm)
  exact ⟨m'', hwrite, hrefines'.content_eq.trans hrefines.content_eq.symm⟩

end Refines

private theorem beside_create {m₀ : Memory} {size : Int} (h : create m size = .ok (b, m₀))
    {v : View}
    (hflat : v.contiguous = true) (hplaced : v.place < m.storages.length) :
    v.Beside b m₀ ∧ v.bytes m₀ = v.bytes m := by
  obtain ⟨n, -, -, hplace, -, -, rfl⟩ := create_eq_ok h
  refine ⟨⟨hflat, ?_, ?_⟩, congrArg Storage.bytes (m.get_add _ _ hplaced)⟩
  · change v.place < (m.storages ++ [_]).length
    rw [List.length_append]
    exact Nat.lt_add_right _ hplaced
  · rw [hplace]
    exact Nat.ne_of_lt hplaced

private theorem ofArgument_view {v : View} {m₀ : Memory} (hflat : v.contiguous = true)
    (hcreate : create m (v.bytes m).length = .ok (b, m₀)) :
    ∃ m', ofArgument m (.view v) = .ok (b, m') ∧ b.position = 0 ∧
      Refines b m' ⟨v.bytes m, 0, Nat.zero_le _⟩ := by
  have hview : (Argument.view v).flatView? = .ok v := if_pos hflat
  have hblank : Refines b m₀ (.blank (v.bytes m).length) := refines_create hcreate
  obtain ⟨n, -, -, -, hlength, hposition, -⟩ := create_eq_ok hcreate
  have hmade : ofArgument m (.view v) = .ok (b, m₀.write b.start (v.bytes m)) := by
    unfold ofArgument Argument.flat?
    rw [hview]
    change (create m (v.bytes m).length).bind _ = _
    rw [hcreate]
    rfl
  have hb : b.position + (v.bytes m).length ≤ b.size := by omega
  have hf : (ByteFile.blank (v.bytes m).length).cursor + (v.bytes m).length ≤
      (ByteFile.blank (v.bytes m).length).content.length := by
    rw [hblank.length_eq, ← hblank.position_eq]
    exact hb
  have hwritten := (hblank.overwrite hb hf).moveTo (Nat.zero_le _) (Nat.zero_le _)
  have hback : (b.moveTo (b.position + (v.bytes m).length) hb).moveTo 0 (Nat.zero_le _) = b := by
    obtain ⟨place, size, position, _⟩ := b
    obtain rfl : position = 0 := hposition
    rfl
  have hcontent : ((ByteFile.blank (v.bytes m).length).overwrite (v.bytes m) hf).content =
      v.bytes m := by
    rw [ByteFile.content_overwrite_blank, Nat.sub_self, Bytes.zeros, List.replicate_zero,
      List.append_nil]
  rw [hback] at hwritten
  simp only [hcontent] at hwritten
  have hmemory : m₀.write b.start (v.bytes m) =
      m₀.set b.place ((m₀.get b.place).write b.position (v.bytes m)) := by
    rw [hposition]
    rfl
  rw [← hmemory] at hwritten
  exact ⟨_, hmade, hposition, hwritten⟩

/-- What views show together was written into a new buffer of some size, one after another: zeros
stand behind it, and writing it at once comes to the same. -/
structure WrittenInPieces (m m₀ : Memory) (b : DirectBuffer) (size : Nat) (vs : List View)
    (b' : DirectBuffer) (m' : Memory) : Prop where
  writes : b.writeAll m₀ vs = .ok (b', m')
  position_eq : b'.position = (vs.map (·.bytes m)).flatten.length
  contents_eq : b'.contents m' =
    (vs.map (·.bytes m)).flatten ++ Bytes.zeros (size - (vs.map (·.bytes m)).flatten.length)
  at_once : ∀ whole : View, whole.contiguous = true → whole.place < m.storages.length →
    whole.bytes m = (vs.map (·.bytes m)).flatten →
    ∃ m'', b.writeFrom m₀ (.view whole) = .ok (b'.position, b', m'') ∧
      b'.contents m'' = b'.contents m'

/-- What was fetched in pieces is what was ahead of the cursor, as much as was asked for together.
At the end there is nothing more to fetch. -/
structure FetchedInPieces (m : Memory) (b : DirectBuffer) (qs : List Fetch) (pieces : List Bytes)
    (b' : DirectBuffer) (m' : Memory) : Prop where
  fetches : b.fetchAll m qs = .ok (pieces, b', m')
  flatten_eq : pieces.flatten = ((b.contents m).drop b.position).take
    ((overall (qs.map (·.limit m))).getD b.remaining)
  position_eq : b'.position = b.position + pieces.flatten.length
  contents_eq : b'.contents m' = b.contents m
  at_end : b'.position = b'.size → ∀ more : List Fetch, (∀ q ∈ more, q.Possible b' m') →
    ∃ pieces' b'' m'', b'.fetchAll m' more = .ok (pieces', b'', m'') ∧
      ∀ piece ∈ pieces', piece = []

/-- A buffer was made of some bytes, and gives them back in whatever pieces all is read. -/
structure MadeOf (data : Bytes) (b : DirectBuffer) (m : Memory) : Prop where
  position_eq : b.position = 0
  contents_eq : b.contents m = data
  gives_back : ∀ qs : List Fetch, (∀ q ∈ qs, q.Possible b m) →
    (∀ n, overall (qs.map (·.limit m)) = some n → data.length ≤ n) →
    ∃ pieces b' m', b.fetchAll m qs = .ok (pieces, b', m') ∧ pieces.flatten = data

private theorem writtenInPieces {size : Nat} {m₀ : Memory} (hcreate : create m size = .ok (b, m₀))
    {vs : List View} (hvs : ∀ v ∈ vs, v.contiguous = true ∧ v.place < m.storages.length)
    (hfits : (vs.map (·.bytes m)).flatten.length ≤ size) :
    ∃ b' m', WrittenInPieces m m₀ b size vs b' m' := by
  have hblank : Refines b m₀ (.blank size) := refines_create hcreate
  have hviews : ∀ v ∈ vs, v.Beside b m₀ ∧ v.bytes m₀ = v.bytes m := fun v hv =>
    beside_create hcreate (hvs v hv).1 (hvs v hv).2
  have hbeside : ∀ v ∈ vs, v.Beside b m₀ := fun v hv => (hviews v hv).1
  have hbytes : (vs.map (·.bytes m₀)).flatten = (vs.map (·.bytes m)).flatten :=
    congrArg List.flatten (List.map_congr_left fun v hv => (hviews v hv).2)
  have hroom : (ByteFile.blank size).cursor + (vs.map (·.bytes m₀)).flatten.length ≤
      (ByteFile.blank size).content.length := by
    rw [hbytes]
    exact Nat.le_trans (Nat.le_of_eq (Nat.zero_add _))
      (Nat.le_trans hfits (Nat.le_of_eq List.length_replicate.symm))
  obtain ⟨b', m', hwrites, hrefines, -⟩ := hblank.writeAll hbeside hroom
  have hposition : b'.position = (vs.map (·.bytes m)).flatten.length := by
    rw [hrefines.position_eq, ← hbytes]
    exact Nat.zero_add _
  refine ⟨b', m', hwrites, hposition, ?_, fun whole hflat hplaced hwhole => ?_⟩
  · rw [hrefines.content_eq, ByteFile.content_overwrite_blank, hbytes]
  · obtain ⟨hwholeBeside, hsame⟩ := beside_create hcreate hflat hplaced
    have hall : whole.bytes m₀ = (vs.map (·.bytes m₀)).flatten := by
      rw [hsame, hwhole, hbytes]
    obtain ⟨m'', hwrite, hcontents⟩ :=
      hblank.writeAll_whole hbeside hroom hwholeBeside hall hwrites
    rw [hsame, hwhole, ← hposition] at hwrite
    exact ⟨m'', hwrite, hcontents⟩

private theorem fetchedInPieces (hplaced : b.place < m.storages.length)
    (hfits : b.size ≤ m.size b.place)
    {qs : List Fetch} (hqs : ∀ q ∈ qs, q.Possible b m) :
    ∃ pieces b' m', FetchedInPieces m b qs pieces b' m' := by
  obtain ⟨f, hf, hrest⟩ := Refines.of_placed hplaced hfits
  obtain ⟨b', m', f', hfetches, hrefines, hcontent, hcursor, -⟩ := hf.fetchAll hqs
  refine ⟨_, b', m', hfetches, ?_, ?_, ?_, fun hend more hmore => ?_⟩
  · rw [flatten_portions, f.length_rest, hf.left_eq, hrest]
  · rw [hrefines.position_eq, hcursor, hf.position_eq]
  · rw [hrefines.content_eq, hcontent, hf.content_eq]
  · obtain ⟨b'', m'', -, hfetches', -⟩ := hrefines.fetchAll hmore
    rw [hrefines.rest_eq_nil hend] at hfetches'
    exact ⟨_, b'', m'', hfetches', fun piece hpiece => portions_nil hpiece⟩

private theorem exists_madeOf {v : View} {m₀ : Memory} (hflat : v.contiguous = true)
    (hcreate : create m (v.bytes m).length = .ok (b, m₀)) :
    ∃ m', ofArgument m (.view v) = .ok (b, m') ∧ MadeOf (v.bytes m) b m' := by
  obtain ⟨m', hmade, hposition, hrefines⟩ := ofArgument_view hflat hcreate
  refine ⟨m', hmade, hposition, hrefines.content_eq, fun qs hqs hfull => ?_⟩
  obtain ⟨b', m'', -, hfetches, -⟩ := hrefines.fetchAll hqs
  refine ⟨_, b', m'', hfetches, ?_⟩
  rw [flatten_portions]
  change (v.bytes m).take ((overall (qs.map (·.limit m'))).getD (v.bytes m).length) = v.bytes m
  cases htotal : overall (qs.map (·.limit m')) with
  | none => exact List.take_length
  | some n => exact List.take_of_length_le (hfull n htotal)

/-- It does not matter for a direct buffer in which pieces bytes are written or read: bytes that fit
into a new buffer, what is ahead of the cursor of any buffer in memory, and what a buffer is made
of. -/
theorem chunking_immaterial (m : Memory) :
    (∀ (size : Nat) (b : DirectBuffer) (m₀ : Memory), create m size = .ok (b, m₀) →
      ∀ vs : List View, (∀ v ∈ vs, v.contiguous = true ∧ v.place < m.storages.length) →
        (vs.map (·.bytes m)).flatten.length ≤ size →
        ∃ b' m', WrittenInPieces m m₀ b size vs b' m') ∧
    (∀ b : DirectBuffer, b.place < m.storages.length → b.size ≤ m.size b.place →
      ∀ qs : List Fetch, (∀ q ∈ qs, q.Possible b m) →
        ∃ pieces b' m', FetchedInPieces m b qs pieces b' m') ∧
    ∀ (v : View) (b : DirectBuffer) (m₀ : Memory), v.contiguous = true →
      create m (v.bytes m).length = .ok (b, m₀) →
        ∃ m', ofArgument m (.view v) = .ok (b, m') ∧ MadeOf (v.bytes m) b m' :=
  ⟨fun _ _ _ hcreate _ hvs hfits => writtenInPieces hcreate hvs hfits,
    fun _ hplaced hfits _ hqs => fetchedInPieces hplaced hfits hqs,
    fun _ _ _ hflat hcreate => exists_madeOf hflat hcreate⟩

/-- Two pieces are written into a new buffer of five bytes. A buffer with its cursor behind the
first of three bytes is read by a byte, and then into an object that has room for two. -/
theorem chunking_immaterial_pieces :
    let m : Memory := { storages := [.ofBytes [1, 2], .ofBytes [3], .ofBytes [7, 8, 9]] }
    let v (place : Nat) : View := { type := "bytearray", place, readOnly := false }
    let b : DirectBuffer := ⟨2, 3, 1, by decide⟩
    (∃ b m₀ b' m', create m 5 = .ok (b, m₀) ∧ b.writeAll m₀ [v 0, v 1] = .ok (b', m') ∧
      b'.position = 3 ∧ b'.contents m' = [1, 2, 3, 0, 0]) ∧
    ∃ pieces b' m', b.fetchAll m [.read (some 1), .into (v 0)] = .ok (pieces, b', m') ∧
      pieces.flatten = [8, 9] ∧ b'.position = 3 := by
  intro m v b
  obtain ⟨hwrites, hfetches, -⟩ := chunking_immaterial m
  constructor
  · obtain ⟨b', m', hall⟩ := hwrites 5 ⟨3, 5, 0, by decide⟩ _ rfl [v 0, v 1] (by simp [v, m])
      (by decide)
    exact ⟨_, _, b', m', rfl, hall.writes, hall.position_eq, hall.contents_eq⟩
  · have hpossible : ∀ q ∈ [Fetch.read (some 1), .into (v 0)], q.Possible b m := by
      simp only [List.forall_mem_cons]
      exact ⟨trivial, ⟨rfl, rfl, by decide, by decide⟩, fun _ h => absurd h List.not_mem_nil⟩
    obtain ⟨pieces, b', m', hall⟩ := hfetches b (by decide) (by decide) _ hpossible
    have hgot : pieces.flatten = [8, 9] := hall.flatten_eq.trans (by decide)
    have hposition := hall.position_eq
    rw [hgot] at hposition
    exact ⟨pieces, b', m', hall.fetches, hgot, hposition⟩

end DirectBuffer

end NativeCodec

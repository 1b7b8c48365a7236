import NativeCodec.Proofs.Zstd.Agreement
import NativeCodec.Zstd.Encode

set_option autoImplicit false
set_option relaxedAutoImplicit false

namespace NativeCodec.Zstd

/-- The largest window that every decoder is expected to have. -/
def commonWindow : Nat := 0x8000000

variable (reader : Reader)

structure Parts (frame content : Bytes) (h : Header) (body tail : Bytes) : Prop where
  stands : Stands reader frame h body content.reverse tail []
  recorded : h.contentSize = some content.length
  window : h.window ≤ commonWindow
  within : Within reader h.blockLimit (Chain.read body).blocks reader.start
  near : InWindow reader h.window (Chain.read body).blocks reader.start

def Conforms (frame content : Bytes) : Prop := ∃ h body tail, Parts reader frame content h body tail

variable {reader}

section Conforms

variable {frame content : Bytes} {room : Nat} (hc : Conforms reader frame content)

include hc

private theorem Conforms.opens_append (more : Bytes) :
    Opens reader (frame ++ more) content more := by
  obtain ⟨h, body, tail, hp⟩ := hc
  have hopens := Opens.data (hp.stands.append more)
  rwa [List.reverse_reverse] at hopens

theorem Conforms.opens : Opens reader frame content [] :=
  List.append_nil frame ▸ hc.opens_append []

theorem Conforms.recordedSize_eq : recordedSize frame = content.length := by
  obtain ⟨h, body, tail, hp⟩ := hc
  unfold recordedSize
  rw [hp.stands.start]
  dsimp only
  rw [hp.recorded, Option.getD_some]

private theorem Conforms.limited_and_near (more : Bytes) :
    Limited reader room (frame ++ more) ∧ Near reader room (frame ++ more) := by
  obtain ⟨h, body, tail, hp⟩ := hc
  have hstart := (hp.stands.append more).start
  have hblocks : (Chain.read (body ++ more)).blocks = (Chain.read body).blocks := by
    rw [Chain.read_append more hp.stands.ending]
  refine ⟨.blockwise hstart (Nat.le_trans hp.window (by decide)) (hblocks ▸ hp.within), ?_⟩
  intro h' body' hstart'
  obtain ⟨rfl, rfl⟩ := Start.read_data_unique hstart hstart'
  exact .inr (hblocks ▸ hp.near)

end Conforms

section Flatten

variable {parts : List (Bytes × Bytes)} (hp : ∀ p ∈ parts, Conforms reader p.1 p.2)

include hp

theorem consists_flatten :
    Consists reader (parts.map Prod.fst).flatten (parts.map Prod.snd) := by
  induction parts with
  | nil => exact .nil
  | cons p parts ih =>
    exact .cons ((hp p (List.mem_cons_self ..)).opens_append _)
      (ih fun q hq => hp q (List.mem_cons_of_mem p hq))

/-- Conforming frames one after another can be taken by a stream decoder. -/
theorem limited_and_near_flatten (room : Nat) : ∀ ahead ∈ frameStarts (parts.map Prod.fst).flatten,
    Limited reader room ahead ∧ Near reader room ahead := by
  induction parts with
  | nil =>
    rw [List.map_nil, List.flatten_nil, frameStarts_nil]
    exact fun _ h => absurd h List.not_mem_nil
  | cons p parts ih =>
    have hc := hp p (List.mem_cons_self ..)
    rw [List.map_cons, List.flatten_cons,
      frameStarts_of_afterFrame (hc.opens_append _).afterFrame_eq]
    exact List.forall_mem_cons.mpr
      ⟨hc.limited_and_near _, ih fun q hq => hp q (List.mem_cons_of_mem p hq)⟩

theorem flatten_ne_nil (hne : parts ≠ []) : (parts.map Prod.fst).flatten ≠ [] := by
  cases parts with
  | nil => exact absurd rfl hne
  | cons p parts =>
    rw [List.map_cons, List.flatten_cons]
    exact ne_nil_of_afterFrame ((hp p (List.mem_cons_self ..)).opens_append _).afterFrame_eq

end Flatten

private theorem Block.read_encodeBlock {content : Bytes} (h : content.length ≤ plainLimit) :
    Block.read (encodeBlock true content) = .ok (⟨true, .raw, content⟩, []) := by
  have hlt : content.length ≤ 7 := h
  obtain ⟨a, b, c, hbytes⟩ : ∃ a b c, encodeBlockHeader true 0 content.length = [a, b, c] :=
    ⟨_, _, _, rfl⟩
  have hheader : Bytes.toNat [a, b, c] = 1 + 8 * content.length := by
    rw [← hbytes, encodeBlockHeader, Bytes.toNat_ofNat]
    exact Nat.mod_eq_of_lt (by simp [Nat.pow]; omega)
  have hsplit : Bytes.split? content.length content = some (content, []) := by
    have := Bytes.split?_append content []
    rwa [List.append_nil] at this
  unfold encodeBlock
  dsimp only
  rw [if_pos h, hbytes]
  simp only [Block.read, List.cons_append, List.nil_append, hheader]
  rw [show (1 + 8 * content.length) / 2 % 4 = 0 by omega,
    show (1 + 8 * content.length) % 2 = 1 by omega,
    show (1 + 8 * content.length) / 8 = content.length by omega, hsplit]
  rfl

private theorem Start.read_encodeFields {size : Nat} (h : size ≤ plainLimit) (body : Bytes) :
    Start.read (Bytes.ofNat 4 frameMagic ++ encodeFields size ++ body) =
      .ok (.data ⟨some size, size, 0, false⟩, body) := by
  have hlt : size ≤ 7 := h
  have hmagic : Bytes.ofNat 4 frameMagic = [0x28, 0xB5, 0x2F, 0xFD] := by decide
  have hfields : encodeFields size = [0x20, UInt8.ofNat size] := by
    rw [encodeFields, if_pos (by omega)]
  have hdescriptor : Descriptor.ofByte 0x20 = ⟨0, true, false, false, 0⟩ := by decide +kernel
  have hsize : Bytes.toNat [UInt8.ofNat size] = size := by
    have hround := Bytes.toNat_ofNat 1 size
    rw [Nat.mod_eq_of_lt (by simp [Nat.pow]; omega)] at hround
    exact hround
  have hrecorded : Descriptor.readSize ⟨0, true, false, false, 0⟩ [UInt8.ofNat size] =
      some size := by
    have hunknown : ¬size = unknownSize := by
      unfold unknownSize wordLimit
      omega
    simp only [Descriptor.readSize, Descriptor.sizeWidth, hsize, hunknown, if_true, or_false]
    rfl
  rw [hmagic, hfields]
  simp only [List.cons_append, List.nil_append, Start.read]
  rw [if_pos (by decide), hdescriptor]
  have hsplit : Bytes.split? (Descriptor.fieldWidth ⟨0, true, false, false, 0⟩)
      (UInt8.ofNat size :: body) = some ([UInt8.ofNat size], body) :=
    Bytes.split?_append [UInt8.ofNat size] body
  rw [hsplit]
  simp only [Descriptor.readFields, Descriptor.windowWidth, Descriptor.dictionaryWidth, if_true,
    List.splitAt_eq, List.take_zero, List.drop_zero, hrecorded]
  rfl

/-- The frame of a content that is written as it is conforms, however entropy coding is read. -/
theorem conforms_encode (reader : Reader) {content : Bytes} (h : content.length ≤ plainLimit) :
    Conforms reader (encode content) content := by
  have hlt : content.length ≤ 7 := h
  have hchain : Chain.read (encodeBlock true content) = ⟨[⟨true, .raw, content⟩], .ok []⟩ := by
    rw [Chain.read]
    split
    · next hm => exact absurd (hm.symm.trans (Block.read_encodeBlock h)) (by simp)
    · next b after hm =>
      have he := hm.symm.trans (Block.read_encodeBlock h)
      rw [Except.ok.injEq, Prod.mk.injEq] at he
      rw [he.1, he.2]
      rfl
  have hblocks : encodeBlocks (content.length / maxBlock) content = encodeBlock true content := by
    rw [Nat.div_eq_of_lt (by unfold maxBlock; omega)]
    rfl
  have hlimit : Header.blockLimit ⟨some content.length, content.length, 0, false⟩ =
      content.length := by
    unfold Header.blockLimit maxBlock
    dsimp only
    omega
  have hplain {P : Block → Recipe → Prop} (hP : P ⟨true, .raw, content⟩ (.plain content)) :
      EveryRecipe reader P [⟨true, .raw, content⟩] reader.start := by
    intro e r hr
    obtain ⟨rfl, rfl⟩ := Prod.mk.inj (Option.some.inj hr)
    exact ⟨hP, trivial⟩
  refine ⟨⟨some content.length, content.length, 0, false⟩, encodeBlock true content, [], ?_⟩
  exact
    { stands :=
        { start := by
            unfold encode
            dsimp only
            rw [hblocks]
            exact Start.read_encodeFields h _
          dictionary := rfl
          blocks := by
            rw [hchain]
            change some (content.reverseAux []) = some content.reverse
            rw [List.reverseAux_eq, List.append_nil]
          ending := by rw [hchain]
          agrees := by
            rw [List.length_reverse]
            exact Header.agrees_eq_true.mpr fun _ hr => (Option.some.inj hr).symm
          verified := rfl }
      recorded := rfl
      window := Nat.le_trans hlt (by decide)
      within := by
        rw [hchain, hlimit]
        exact hplain ⟨Nat.le_refl _, by simp [Recipe.plain, Recipe.size, sizeOfSteps]⟩
      near := by
        rw [hchain]
        exact hplain fun s hs => absurd hs List.not_mem_nil }

end NativeCodec.Zstd

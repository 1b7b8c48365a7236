import NativeCodec.Proofs.Zstd.Literals
import NativeCodec.Proofs.Zstd.Recipes

set_option autoImplicit false
set_option relaxedAutoImplicit false

namespace NativeCodec.Zstd

/-- None of the offsets used last is zero. -/
structure Recent.Reaching (r : Recent) : Prop where
  first : 0 < r.first
  second : 0 < r.second
  third : 0 < r.third

theorem Recent.Reaching.start : ({} : Entropy).recent.Reaching :=
  ⟨by decide, by decide, by decide⟩

/-- A chosen offset is not zero, and neither are those kept after it. -/
theorem Recent.Reaching.choose {r : Recent} (h : r.Reaching) (code extra : Nat)
    (noLiterals : Bool) :
    0 < (r.choose code extra noLiterals).1 ∧ (r.choose code extra noLiterals).2.Reaching := by
  unfold Recent.choose
  split
  · next hc =>
    have hp : 4 ≤ 1 <<< code := by
      rw [Nat.one_shiftLeft]
      exact Nat.pow_le_pow_right (show 0 < 2 by decide) hc
    have hn : 0 < (1 <<< code) - 3 + extra := by omega
    exact ⟨hn, hn, h.first, h.second⟩
  · split
    · exact ⟨h.first, h⟩
    · exact ⟨h.second, h.second, h.first, h.third⟩
    · exact ⟨h.third, h.third, h.first, h.second⟩
    · have hn : 0 < max (r.first - 1) 1 := by omega
      exact ⟨hn, hn, h.first, h.second⟩

private theorem decodeSequences_reaching (tables : Fse.Table × Fse.Table × Fse.Table) (count : Nat)
    {states : Nat × Nat × Nat} {recent : Recent} {done : List Sequence} (s : Backward)
    (hr : recent.Reaching) (hd : ∀ q ∈ done, 0 < q.offset) :
    (∀ q ∈ (decodeSequences tables count states recent done s).1, 0 < q.offset) ∧
      (decodeSequences tables count states recent done s).2.1.Reaching := by
  induction count generalizing states recent done s with
  | zero => exact ⟨hd, hr⟩
  | succ count ih =>
    obtain ⟨ll, of, ml⟩ := states
    rw [decodeSequences]
    dsimp only
    obtain ⟨hoffset, hrecent⟩ := hr.choose (tables.2.1.cell of).symbol
      (if (tables.2.1.cell of).symbol = 0 then (0, s)
        else s.readExtra (tables.2.1.cell of).symbol).1 ((tables.1.cell ll).symbol = 0)
    apply ih _ hrecent
    intro q hq
    rcases List.mem_cons.mp hq with rfl | hq
    · exact hoffset
    · exact hd q hq

private theorem readSequences_reaching {tables : Fse.Table × Fse.Table × Fse.Table} {count : Nat}
    {recent recent' : Recent} {bytes : Bytes} {sequences : List Sequence} {s : Backward}
    (h : readSequences tables count recent bytes = some (sequences, recent', s))
    (hr : recent.Reaching) : (∀ q ∈ sequences, 0 < q.offset) ∧ recent'.Reaching := by
  unfold readSequences at h
  split at h
  · exact absurd h (by simp)
  · dsimp only at h
    rw [Option.some.injEq, Prod.mk.injEq, Prod.mk.injEq] at h
    obtain ⟨rfl, rfl, -⟩ := h
    obtain ⟨hq, hrecent⟩ := decodeSequences_reaching tables count _ hr
      (fun _ hq => absurd hq (List.not_mem_nil))
    exact ⟨fun q hm => hq q (List.mem_reverse.mp hm), hrecent⟩

def Output.of (reversed : Bytes) : Output := ⟨reversed, reversed.length⟩

private theorem Output.append_of (out bytes : Bytes) :
    (Output.of out).append bytes bytes.length = .of (bytes.reverseAux out) := by
  unfold append of
  rw [List.reverseAux_eq, List.length_append, List.length_reverse, Nat.add_comm]

def stepsOf : List Sequence → Bytes → Option (List Step × Bytes)
  | [], literals => some ([], literals)
  | q :: rest, literals =>
    if literals.length < q.literals then none
    else (stepsOf rest (literals.drop q.literals)).map fun (steps, last) =>
      (⟨literals.take q.literals, q.offset, q.length⟩ :: steps, last)

/-- What a compressed block asks for, once its literals are read. -/
def recipeOf (e : Entropy) (literals rest : Bytes) : Option (Entropy × Recipe) :=
  match readCount rest with
  | .error _ => none
  | .ok none => some (e, .plain literals)
  | .ok (some (count, rest)) =>
    match readTables e rest with
    | .error _ => none
    | .ok (tables, rest) =>
      let e := { e with tables := some tables }
      if count = 0 then some (e, .plain literals)
      else
        match readSequences tables count e.recent rest with
        | none => none
        | some (sequences, recent, s) =>
          if s.ahead.isEmpty then
            (stepsOf sequences literals).map fun (steps, last) =>
              ({ e with recent, repeatable := true }, ⟨steps, last⟩)
          else none

def readBlock (e : Entropy) (src : Bytes) : Option (Entropy × Recipe) :=
  if Bytes.holds maxBlock src then none
  else
    match readLiterals e.code maxBlock src with
    | .error _ => none
    | .ok (literals, code, rest) => recipeOf { e with code } literals rest

def entropyReader : Reader where
  State := Entropy
  start := {}
  read := readBlock
  hollow e := by
    unfold readBlock readLiterals
    rw [if_neg (by decide), if_pos (by decide)]

section Sequences

variable {capacity : Nat} {sequences : List Sequence} {literals last out out' : Bytes}
  {steps : List Step}

private theorem length_le_of_stepsOf (h : stepsOf sequences literals = some (steps, last)) :
    literals.length ≤ sizeOfSteps steps + last.length := by
  induction sequences generalizing literals steps with
  | nil =>
    obtain ⟨rfl, rfl⟩ := Prod.mk.inj (Option.some.inj h)
    exact Nat.le_add_left _ _
  | cons q rest ih =>
    rw [stepsOf] at h
    split at h
    · exact absurd h (by simp)
    · obtain ⟨⟨more, left⟩, hmore, hpair⟩ := Option.map_eq_some_iff.mp h
      obtain ⟨rfl, rfl⟩ := Prod.mk.inj hpair
      have hrest := ih hmore
      rw [List.length_drop] at hrest
      rw [sizeOfSteps, List.length_take]
      omega

private theorem execute_cons {q : Sequence} {rest : List Sequence}
    (hroom : out.length + q.literals + q.length ≤ capacity) (hl : q.literals ≤ literals.length)
    (hzero : q.offset ≠ 0) (hreach : q.offset ≤ out.length + q.literals) :
    execute capacity (q :: rest) literals literals.length (.of out) =
      execute capacity rest (literals.drop q.literals) (literals.drop q.literals).length
        (.of (copyMatch q.offset q.length ((literals.take q.literals).reverseAux out))) := by
  have htake : (literals.take q.literals).length = q.literals := List.length_take_of_le hl
  have hsize : (Output.of out).size = out.length := rfl
  have happend := Output.append_of out (literals.take q.literals)
  rw [htake] at happend
  have hlength : ((literals.take q.literals).reverseAux out).length =
      out.length + q.literals := by
    rw [List.reverseAux_eq, List.length_append, List.length_reverse, htake, Nat.add_comm]
  rw [execute, hsize, if_neg (by omega), if_neg (by omega), if_neg (by omega), List.splitAt_eq]
  dsimp only
  rw [happend, List.length_drop]
  unfold Output.of
  dsimp only
  rw [length_copyMatch q.length hzero (by omega)]

private theorem Step.follow_of_sequence {q : Sequence} (hl : q.literals ≤ literals.length) :
    Step.follow ⟨literals.take q.literals, q.offset, q.length⟩ out =
      if q.offset = 0 ∨ out.length + q.literals < q.offset then none
      else some (copyMatch q.offset q.length ((literals.take q.literals).reverseAux out)) := by
  unfold follow
  dsimp only
  rw [List.reverseAux_eq, List.length_append, List.length_reverse, List.length_take_of_le hl,
    Nat.add_comm]

private theorem execute_of_stepsOf (h : stepsOf sequences literals = some (steps, last))
    (hf : followSteps steps out = some out') :
    execute capacity sequences literals literals.length (.of out) =
      if sequences = [] ∨ out'.length ≤ capacity then .ok (last, last.length, .of out')
      else .error .destinationTooSmall := by
  induction sequences generalizing literals steps out with
  | nil =>
    obtain ⟨rfl, rfl⟩ := Prod.mk.inj (Option.some.inj h)
    obtain rfl := Option.some.inj hf
    rw [if_pos (Or.inl rfl)]
    rfl
  | cons q rest ih =>
    rw [stepsOf] at h
    split at h
    · exact absurd h (by simp)
    next hshort =>
    have hl := Nat.not_lt.mp hshort
    obtain ⟨⟨more, left⟩, hmore, hpair⟩ := Option.map_eq_some_iff.mp h
    obtain ⟨rfl, rfl⟩ := Prod.mk.inj hpair
    obtain ⟨mid, hfirst, hrest⟩ := Option.bind_eq_some_iff.mp hf
    have hmid := Step.length_follow hfirst
    dsimp only at hmid
    rw [List.length_take_of_le hl] at hmid
    have hlength := length_followSteps hrest
    by_cases hroom : capacity < out.length + q.literals + q.length
    · have hsize : (Output.of out).size = out.length := rfl
      rw [execute, hsize, if_pos hroom, if_neg (by simp; omega)]
    · rw [Step.follow_of_sequence hl] at hfirst
      split at hfirst
      · exact absurd hfirst (by simp)
      next hreach =>
      obtain ⟨hzero, hfar⟩ := not_or.mp hreach
      obtain rfl := Option.some.inj hfirst
      rw [execute_cons (Nat.not_lt.mp hroom) hl hzero (Nat.not_lt.mp hfar), ih hmore hrest]
      by_cases hfit : out'.length ≤ capacity
      · rw [if_pos (Or.inr hfit), if_pos (Or.inr hfit)]
      · cases rest with
        | nil =>
          obtain ⟨rfl, -⟩ := Prod.mk.inj (Option.some.inj hmore)
          obtain rfl := Option.some.inj hrest
          omega
        | cons q' rest => rw [if_neg (by simp [hfit]), if_neg (by simp [hfit])]

private theorem stepsOf_of_execute {left : Bytes} {count : Nat} {o : Output}
    (h : execute capacity sequences literals literals.length (.of out) = .ok (left, count, o))
    (hs : ∀ q ∈ sequences, 0 < q.offset) :
    ∃ steps out', stepsOf sequences literals = some (steps, left) ∧
      followSteps steps out = some out' ∧ count = left.length ∧ o = .of out' := by
  induction sequences generalizing literals out with
  | nil =>
    rw [execute, Except.ok.injEq, Prod.mk.injEq, Prod.mk.injEq] at h
    obtain ⟨rfl, rfl, rfl⟩ := h
    exact ⟨[], out, rfl, rfl, rfl, rfl⟩
  | cons q rest ih =>
    have hsize : (Output.of out).size = out.length := rfl
    have hzero := Nat.pos_iff_ne_zero.mp (hs q (List.mem_cons_self ..))
    have hx := h
    rw [execute, hsize] at hx
    split at hx
    · exact absurd hx (by simp)
    next hroom =>
    split at hx
    · exact absurd hx (by simp)
    next hl =>
    split at hx
    · exact absurd hx (by simp)
    next hreach =>
    rw [execute_cons (Nat.not_lt.mp hroom) (Nat.not_lt.mp hl) hzero (Nat.not_lt.mp hreach)] at h
    obtain ⟨steps, out', hsteps, hfollow, hcount, ho⟩ :=
      ih h fun p hp => hs p (List.mem_cons_of_mem q hp)
    refine ⟨_, out', by rw [stepsOf, if_neg hl, hsteps]; rfl, ?_, hcount, ho⟩
    refine Option.bind_eq_some_iff.mpr ⟨_, ?_, hfollow⟩
    rw [Step.follow_of_sequence (Nat.not_lt.mp hl), if_neg (by omega)]

end Sequences

/-- What is left to do for a compressed block once its literals are read. -/
def placeBlock (capacity : Nat) (e : Entropy) (out : Output) (literals rest : Bytes) :
    Except Fault (Entropy × Output) :=
  let all := literals.length
  match readCount rest with
  | .error f => .error f
  | .ok none => (out.finish capacity literals all).map fun out => (e, out)
  | .ok (some (count, rest)) =>
    match readTables e rest with
    | .error f => .error f
    | .ok (tables, rest) =>
      let e := { e with tables := some tables }
      if count = 0 then (out.finish capacity literals all).map fun out => (e, out)
      else
        match readSequences tables count e.recent rest with
        | none => .error .corrupted
        | some (sequences, recent, s) =>
          match execute capacity sequences literals all out with
          | .error f => .error f
          | .ok (literals, left, out) =>
            if s.ahead.isEmpty then
              (out.finish capacity literals left).map fun out =>
                ({ e with recent, repeatable := true }, out)
            else .error .corrupted

private theorem decodeBlock_eq (capacity : Nat) (e : Entropy) (out : Output) (src : Bytes) :
    decodeBlock capacity e out src =
      if Bytes.holds maxBlock src then .error .sourceSize
      else
        match readLiterals e.code (capacity - out.size) src with
        | .error f => .error f
        | .ok (literals, code, rest) => placeBlock capacity { e with code } out literals rest := rfl

/-- What a step of decoding comes to at a capacity, if there is room for what it leaves. -/
def outcome (capacity : Nat) (e : Entropy) (out : Bytes) : Except Fault (Entropy × Output) :=
  if out.length ≤ capacity then .ok (e, .of out) else .error .destinationTooSmall

section Block

variable {capacity : Nat} {e e' : Entropy} {r : Recipe} {literals rest src out out' : Bytes}
  {o : Output}

private theorem finish_of (capacity : Nat) (e : Entropy) (out literals : Bytes) :
    ((Output.of out).finish capacity literals literals.length).map (fun out => (e, out)) =
      outcome capacity e (literals.reverseAux out) := by
  unfold Output.finish outcome
  rw [Output.append_of, List.reverseAux_eq, List.length_append, List.length_reverse]
  change (if capacity < out.length + literals.length then _ else _ : Except Fault Output).map _ = _
  by_cases hfit : literals.length + out.length ≤ capacity
  · rw [if_neg (by omega), if_pos hfit]
    rfl
  · rw [if_pos (by omega), if_neg hfit]
    rfl

private theorem eq_of_outcome (h : outcome capacity e out = .ok (e', o)) :
    e' = e ∧ o = .of out ∧ out.length ≤ capacity := by
  unfold outcome at h
  split at h
  · next hfit =>
    obtain ⟨rfl, rfl⟩ := Prod.mk.inj (Except.ok.inj h)
    exact ⟨rfl, rfl, hfit⟩
  · exact absurd h (by simp)

private theorem placeBlock_of_recipeOf (h : recipeOf e literals rest = some (e', r))
    (hf : r.follow out = some out') :
    placeBlock capacity e (.of out) literals rest = outcome capacity e' out' := by
  unfold recipeOf at h
  unfold placeBlock
  dsimp only at h ⊢
  split at h
  · exact absurd h (by simp)
  · obtain ⟨rfl, rfl⟩ := Prod.mk.inj (Option.some.inj h)
    obtain rfl := Option.some.inj hf
    exact finish_of capacity e out literals
  · split at h
    · exact absurd h (by simp)
    · split at h
      · next hz =>
        obtain ⟨rfl, rfl⟩ := Prod.mk.inj (Option.some.inj h)
        obtain rfl := Option.some.inj hf
        rw [if_pos hz]
        exact finish_of capacity _ out literals
      · next hz =>
        rw [if_neg hz]
        split at h
        · exact absurd h (by simp)
        · next hq =>
          split at h
          · next hs =>
            obtain ⟨⟨steps, last⟩, hsteps, hpair⟩ := Option.map_eq_some_iff.mp h
            obtain ⟨rfl, rfl⟩ := Prod.mk.inj hpair
            obtain ⟨mid, hfollow, rfl⟩ := Option.map_eq_some_iff.mp hf
            rw [execute_of_stepsOf hsteps hfollow]
            split
            · next hx =>
              split at hx
              · exact absurd hx (by simp)
              · next hlack =>
                -- a lack of room for the steps is a lack of room for all
                obtain rfl := Except.error.inj hx
                unfold outcome
                rw [List.reverseAux_eq, List.length_append, List.length_reverse,
                  if_neg (by have := (not_or.mp hlack).2; omega)]
            · next left count done hx =>
              split at hx
              · obtain ⟨rfl, rfl, rfl⟩ := by
                  simpa only [Except.ok.injEq, Prod.mk.injEq] using hx
                rw [if_pos hs]
                exact finish_of capacity _ mid last
              · exact absurd hx (by simp)
          · exact absurd h (by simp)

private theorem recipeOf_of_placeBlock
    (h : placeBlock capacity e (.of out) literals rest = .ok (e', o)) (he : e.recent.Reaching) :
    ∃ r out', recipeOf e literals rest = some (e', r) ∧ r.follow out = some out' ∧ o = .of out' ∧
      e'.recent.Reaching ∧ out'.length ≤ capacity := by
  unfold placeBlock at h
  unfold recipeOf
  dsimp only at h ⊢
  split at h
  · exact absurd h (by simp)
  · rw [finish_of] at h
    obtain ⟨rfl, rfl, hfit⟩ := eq_of_outcome h
    exact ⟨.plain literals, _, rfl, rfl, rfl, he, hfit⟩
  · split at h
    · exact absurd h (by simp)
    · split at h
      · next hz =>
        rw [finish_of] at h
        obtain ⟨rfl, rfl, hfit⟩ := eq_of_outcome h
        rw [if_pos hz]
        exact ⟨.plain literals, _, rfl, rfl, rfl, he, hfit⟩
      · next hz =>
        rw [if_neg hz]
        split at h
        · exact absurd h (by simp)
        · next hq =>
          split at h
          · exact absurd h (by simp)
          · next left count done hx =>
            obtain ⟨hpositive, hrecent⟩ := readSequences_reaching hq he
            obtain ⟨steps, mid, hsteps, hfollow, rfl, rfl⟩ := stepsOf_of_execute hx hpositive
            split at h
            · next hs =>
              rw [finish_of] at h
              obtain ⟨rfl, rfl, hfit⟩ := eq_of_outcome h
              rw [if_pos hs, hsteps]
              refine ⟨⟨steps, left⟩, _, rfl, ?_, rfl, hrecent, hfit⟩
              unfold Recipe.follow
              rw [hfollow]
              rfl
            · exact absurd h (by simp)

private theorem length_le_of_recipeOf (h : recipeOf e literals rest = some (e', r)) :
    literals.length ≤ r.size := by
  unfold recipeOf at h
  dsimp only at h
  split at h
  · exact absurd h (by simp)
  · obtain ⟨-, rfl⟩ := Prod.mk.inj (Option.some.inj h)
    exact Nat.le_add_left _ _
  · split at h
    · exact absurd h (by simp)
    · split at h
      · obtain ⟨-, rfl⟩ := Prod.mk.inj (Option.some.inj h)
        exact Nat.le_add_left _ _
      · split at h
        · exact absurd h (by simp)
        · split at h
          · obtain ⟨⟨steps, last⟩, hsteps, hpair⟩ := Option.map_eq_some_iff.mp h
            obtain ⟨-, rfl⟩ := Prod.mk.inj hpair
            exact length_le_of_stepsOf hsteps
          · exact absurd h (by simp)

private theorem decodeBlock_of_readBlock (h : readBlock e src = some (e', r))
    (hf : r.follow out = some out') :
    decodeBlock capacity e (.of out) src = outcome capacity e' out' := by
  unfold readBlock at h
  rw [decodeBlock_eq]
  split at h
  · exact absurd h (by simp)
  next hs =>
  rw [if_neg hs]
  split at h
  · exact absurd h (by simp)
  next literals code rest hl =>
  have hsize : (Output.of out).size = out.length := rfl
  have hlength := Recipe.length_follow hf
  have hliterals := length_le_of_recipeOf h
  have hmost := length_readLiterals_le hl
  rw [hsize, readLiterals_eq (capacity - out.length) hl]
  split
  · next hx =>
    split at hx
    · exact absurd hx (by simp)
    · obtain rfl := Except.error.inj hx
      unfold outcome
      rw [if_neg (by omega)]
  · next hx =>
    split at hx
    · obtain ⟨rfl, rfl, rfl⟩ := by simpa only [Except.ok.injEq, Prod.mk.injEq] using hx
      exact placeBlock_of_recipeOf h hf
    · exact absurd hx (by simp)

private theorem readBlock_of_decodeBlock (h : decodeBlock capacity e (.of out) src = .ok (e', o))
    (he : e.recent.Reaching) :
    ∃ r out', readBlock e src = some (e', r) ∧ r.follow out = some out' ∧ o = .of out' ∧
      e'.recent.Reaching ∧ out'.length ≤ capacity := by
  rw [decodeBlock_eq] at h
  unfold readBlock
  split at h
  · exact absurd h (by simp)
  next hs =>
  rw [if_neg hs]
  split at h
  · exact absurd h (by simp)
  next literals code rest hl =>
  have hmost := length_readLiterals_le hl
  rw [readLiterals_eq maxBlock hl, if_pos (by omega)]
  exact recipeOf_of_placeBlock h he

private theorem cycleOnto_singleton (b : UInt8) {now : Bytes} (hn : now = [] ∨ now = [b])
    (count : Nat) (out : Bytes) :
    cycleOnto [b] now count out = (List.replicate count b).reverseAux out := by
  induction count generalizing now out with
  | zero => cases now <;> rfl
  | succ count ih =>
    have hstep : cycleOnto [b] now (count + 1) out = cycleOnto [b] [] count (b :: out) := by
      rcases hn with rfl | rfl <;> rfl
    rw [hstep, ih (Or.inl rfl)]
    rfl

end Block

section Blocks

variable {capacity : Nat} {blocks : List Block} {e e' : Entropy} {r : Recipe} {b : Block}
  {out out' : Bytes} {o : Output}

private theorem decode_repeated {last : Bool} {count : Nat} {content : Bytes}
    (hb : content.length = 1) : Block.decode capacity ⟨last, .repeated count, content⟩ e (.of out) =
      outcome capacity e ((List.replicate count (content.headD 0)).reverseAux out) := by
  obtain ⟨byte, rfl⟩ := List.length_eq_one_iff.mp hb
  have hsize : (Output.of out).size = out.length := rfl
  have hcycle : cycleOnto [byte] [byte] count (Output.of out).reversed =
      (List.replicate count byte).reverseAux out := cycleOnto_singleton byte (Or.inr rfl) count out
  have hlength : ((List.replicate count byte).reverseAux out).length = out.length + count := by
    rw [List.reverseAux_eq, List.length_append, List.length_reverse, List.length_replicate,
      Nat.add_comm]
  simp only [Block.decode, hsize, hcycle, List.headD_cons, outcome, hlength]
  by_cases hfit : out.length + count ≤ capacity
  · rw [if_neg (Nat.not_lt.mpr hfit), if_pos hfit]
    unfold Output.of
    rw [hlength]
  · rw [if_pos (Nat.not_le.mp hfit), if_neg hfit]

theorem Block.decode_of_recipe (h : b.recipe entropyReader e = some (e', r))
    (hf : r.follow out = some out') (hb : b.Single) :
    b.decode capacity e (.of out) = outcome capacity e' out' := by
  obtain ⟨last, coding, content⟩ := b
  cases coding with
  | raw =>
    obtain ⟨rfl, rfl⟩ := Prod.mk.inj (Option.some.inj h)
    obtain rfl := Option.some.inj hf
    exact finish_of capacity e out content
  | repeated count =>
    obtain ⟨rfl, rfl⟩ := Prod.mk.inj (Option.some.inj h)
    obtain rfl := Option.some.inj hf
    exact decode_repeated (hb count rfl)
  | compressed => exact decodeBlock_of_readBlock h hf

theorem Block.recipe_of_decode (h : b.decode capacity e (.of out) = .ok (e', o))
    (he : e.recent.Reaching) (hb : b.Single) :
    ∃ r out', b.recipe entropyReader e = some (e', r) ∧ r.follow out = some out' ∧ o = .of out' ∧
      e'.recent.Reaching ∧ out'.length ≤ capacity := by
  obtain ⟨last, coding, content⟩ := b
  cases coding with
  | raw =>
    obtain ⟨rfl, rfl, hfit⟩ := eq_of_outcome ((finish_of capacity e out content).symm.trans h)
    exact ⟨.plain content, _, rfl, rfl, rfl, he, hfit⟩
  | repeated count =>
    rw [decode_repeated (hb count rfl)] at h
    obtain ⟨rfl, rfl, hfit⟩ := eq_of_outcome h
    exact ⟨.plain _, _, rfl, rfl, rfl, he, hfit⟩
  | compressed => exact readBlock_of_decodeBlock h he

private theorem length_le_of_play (h : play entropyReader blocks e out = some out') :
    out.length ≤ out'.length := by
  induction blocks generalizing e out with
  | nil => exact Nat.le_of_eq (congrArg List.length (Option.some.inj h))
  | cons b blocks ih =>
    obtain ⟨e₁, r, mid, -, hfollow, hplay⟩ := play_cons.mp h
    have hmore := ih hplay
    rw [Recipe.length_follow hfollow] at hmore
    omega

theorem decodeBlocks_of_play (h : play entropyReader blocks e out = some out')
    (hb : ∀ b ∈ blocks, b.Single) (hfit : out.length ≤ capacity) :
    decodeBlocks capacity blocks e (.of out) =
      if out'.length ≤ capacity then .ok (.of out') else .error .destinationTooSmall := by
  induction blocks generalizing e out with
  | nil =>
    obtain rfl := Option.some.inj h
    rw [if_pos hfit]
    rfl
  | cons b blocks ih =>
    obtain ⟨e₁, r, mid, hrecipe, hfollow, hplay⟩ := play_cons.mp h
    rw [decodeBlocks, Block.decode_of_recipe hrecipe hfollow (hb b (List.mem_cons_self ..))]
    unfold outcome
    by_cases hmid : mid.length ≤ capacity
    · rw [if_pos hmid]
      exact ih hplay (fun c hc => hb c (List.mem_cons_of_mem b hc)) hmid
    · have hmore := length_le_of_play hplay
      rw [if_neg hmid, if_neg (by omega)]

theorem play_of_decodeBlocks (h : decodeBlocks capacity blocks e (.of out) = .ok o)
    (he : e.recent.Reaching) (hb : ∀ b ∈ blocks, b.Single) :
    ∃ out', play entropyReader blocks e out = some out' ∧ o = .of out' ∧
      (out.length ≤ capacity → out'.length ≤ capacity) := by
  induction blocks generalizing e out with
  | nil =>
    obtain rfl := Except.ok.inj h
    exact ⟨out, rfl, rfl, id⟩
  | cons b blocks ih =>
    rw [decodeBlocks] at h
    split at h
    · exact absurd h (by simp)
    · next e₁ mid hd =>
      obtain ⟨r, mid, hrecipe, hfollow, rfl, hreach, hmid⟩ :=
        Block.recipe_of_decode hd he (hb b (List.mem_cons_self ..))
      obtain ⟨out', hplay, ho, hfit⟩ :=
        ih h hreach fun c hc => hb c (List.mem_cons_of_mem b hc)
      exact ⟨out', play_cons.mpr ⟨e₁, r, mid, hrecipe, hfollow, hplay⟩, ho, fun _ => hfit hmid⟩

end Blocks

end NativeCodec.Zstd

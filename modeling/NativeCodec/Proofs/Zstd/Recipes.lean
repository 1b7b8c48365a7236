import NativeCodec.Proofs.BackReference
import NativeCodec.Proofs.Zstd.Frames
import NativeCodec.Zstd.Stream

set_option autoImplicit false
set_option relaxedAutoImplicit false

namespace NativeCodec.Zstd

/-- Puts out some literals and then repeats `length` bytes from `offset` places back. -/
structure Step where
  literals : Bytes
  offset : Nat
  length : Nat
  deriving DecidableEq, Repr

/-- What a block asks for: steps, and the literals after the last of them. -/
structure Recipe where
  steps : List Step
  last : Bytes
  deriving DecidableEq, Repr

/-- One step onto what there is, newest first; a match cannot reach back further than that. -/
def Step.follow (s : Step) (out : Bytes) : Option Bytes :=
  let out := s.literals.reverseAux out
  if s.offset = 0 ∨ out.length < s.offset then none else some (copyMatch s.offset s.length out)

def followSteps : List Step → Bytes → Option Bytes
  | [], out => some out
  | s :: rest, out => (s.follow out).bind (followSteps rest)

/-- Carries out a recipe onto what a frame stands for so far, newest first. -/
def Recipe.follow (r : Recipe) (out : Bytes) : Option Bytes :=
  (followSteps r.steps out).map r.last.reverseAux

def sizeOfSteps : List Step → Nat
  | [] => 0
  | s :: rest => s.literals.length + s.length + sizeOfSteps rest

def Recipe.size (r : Recipe) : Nat := sizeOfSteps r.steps + r.last.length

def Recipe.plain (bytes : Bytes) : Recipe := ⟨[], bytes⟩

/-- How the entropy coding of compressed blocks is read: what a block asks for, if it can be read,
and what it leaves for the blocks after it. A block of no bytes cannot be read. -/
structure Reader where
  State : Type
  start : State
  read : State → Bytes → Option (State × Recipe)
  hollow : ∀ e, read e [] = none

section Recipe

variable {s : Step} {steps : List Step} {out out' : Bytes}

theorem Step.length_follow (h : s.follow out = some out') :
    out'.length = out.length + (s.literals.length + s.length) := by
  unfold follow at h
  dsimp only at h
  split at h
  · exact absurd h (by simp)
  · next hreach =>
    obtain ⟨hzero, hfar⟩ := not_or.mp hreach
    rw [← Option.some.inj h, length_copyMatch s.length hzero (Nat.not_lt.mp hfar),
      List.reverseAux_eq, List.length_append, List.length_reverse]
    omega

theorem length_followSteps (h : followSteps steps out = some out') :
    out'.length = out.length + sizeOfSteps steps := by
  induction steps generalizing out with
  | nil => exact congrArg List.length (Option.some.inj h).symm
  | cons s rest ih =>
    obtain ⟨mid, hfirst, hrest⟩ := Option.bind_eq_some_iff.mp h
    rw [ih hrest, s.length_follow hfirst, sizeOfSteps]
    omega

theorem Recipe.length_follow {r : Recipe} (h : r.follow out = some out') :
    out'.length = out.length + r.size := by
  obtain ⟨mid, hsteps, rfl⟩ := Option.map_eq_some_iff.mp h
  rw [List.reverseAux_eq, List.length_append, List.length_reverse, length_followSteps hsteps,
    Recipe.size]
  omega

end Recipe

variable (reader : Reader)

def Block.recipe (b : Block) (e : reader.State) : Option (reader.State × Recipe) :=
  match b.coding with
  | .raw => some (e, .plain b.content)
  | .repeated count => some (e, .plain (List.replicate count (b.content.headD 0)))
  | .compressed => reader.read e b.content

def play : List Block → reader.State → Bytes → Option Bytes
  | [], _, out => some out
  | b :: rest, e, out =>
    (b.recipe reader e).bind fun (e, r) => (r.follow out).bind (play rest e)

/-- Every block that can be read, with what it asks for, has some property. -/
def EveryRecipe (P : Block → Recipe → Prop) : List Block → reader.State → Prop
  | [], _ => True
  | b :: rest, e => ∀ e' r, b.recipe reader e = some (e', r) → P b r ∧ EveryRecipe P rest e'

/-- No block takes or stands for more bytes than the limit. -/
def Within (limit : Nat) : List Block → reader.State → Prop :=
  EveryRecipe reader fun b r => b.content.length ≤ limit ∧ r.size ≤ limit

def InWindow (window : Nat) : List Block → reader.State → Prop :=
  EveryRecipe reader fun _ r => ∀ s ∈ r.steps, s.offset ≤ window

def filled (blocks : List Block) : List Block := blocks.filter fun b => !b.isEmpty

section Play

variable {reader} {blocks : List Block} {e : reader.State} {out out' : Bytes}

theorem play_cons {b : Block} : play reader (b :: blocks) e out = some out' ↔
    ∃ e' r mid, b.recipe reader e = some (e', r) ∧ r.follow out = some mid ∧
      play reader blocks e' mid = some out' := by
  simp only [play, Option.bind_eq_some_iff, Prod.exists]
  constructor
  · rintro ⟨e', r, hrecipe, mid, hmid, hplay⟩
    exact ⟨e', r, mid, hrecipe, hmid, hplay⟩
  · rintro ⟨e', r, mid, hrecipe, hmid, hplay⟩
    exact ⟨e', r, hrecipe, mid, hmid, hplay⟩

/-- Blocks that can be carried out are not compressed ones of no bytes. -/
theorem isEmpty_of_play (h : play reader blocks e out = some out') {b : Block} (hb : b ∈ blocks)
    (hc : b.coding = .compressed) : b.isEmpty = false := by
  induction blocks generalizing e out with
  | nil => exact absurd hb List.not_mem_nil
  | cons c blocks ih =>
    obtain ⟨e', r, mid, hrecipe, -, hplay⟩ := play_cons.mp h
    rcases List.mem_cons.mp hb with rfl | hb
    · refine Bool.eq_false_iff.mpr fun hempty => ?_
      have hnone : b.recipe reader e = none := by
        unfold Block.recipe
        rw [hc, List.isEmpty_iff.mp hempty]
        exact reader.hollow e
      exact absurd (hnone.symm.trans hrecipe) (by simp)
    · exact ih hplay hb

theorem filled_of_isEmpty {b : Block} (h : b.isEmpty = true) :
    filled (b :: blocks) = filled blocks := List.filter_cons_of_neg (by simp [h])

theorem filled_of_not_isEmpty {b : Block} (h : b.isEmpty = false) :
    filled (b :: blocks) = b :: filled blocks := List.filter_cons_of_pos (by simp [h])

/-- A block of no bytes asks for nothing, but for compressed ones. -/
theorem Block.recipe_of_isEmpty {b : Block} (hsingle : b.Single)
    (hhollow : b.coding = .compressed → b.isEmpty = false) (hempty : b.isEmpty = true) :
    b.recipe reader e = some (e, .plain []) := by
  have hcontent : b.content = [] := List.isEmpty_iff.mp hempty
  unfold recipe
  cases hc : b.coding with
  | raw => rw [hcontent]
  | repeated count => exact absurd (hsingle count hc) (by simp [hcontent])
  | compressed => exact absurd (hhollow hc) (by simp [hempty])

theorem play_filled (hsingle : ∀ b ∈ blocks, b.Single)
    (hhollow : ∀ b ∈ blocks, b.coding = .compressed → b.isEmpty = false) :
    play reader (filled blocks) e out = play reader blocks e out := by
  induction blocks generalizing e out with
  | nil => rfl
  | cons b blocks ih =>
    have hmore : play reader (filled blocks) = play reader blocks := funext fun _ => funext fun _ =>
      ih (fun c hc => hsingle c (List.mem_cons_of_mem b hc))
        (fun c hc => hhollow c (List.mem_cons_of_mem b hc))
    cases hempty : b.isEmpty with
    | true =>
      have hrecipe := @Block.recipe_of_isEmpty reader e b
        (hsingle b (List.mem_cons_self ..)) (hhollow b (List.mem_cons_self ..)) hempty
      rw [filled_of_isEmpty hempty, hmore, play, hrecipe]
      rfl
    | false => rw [filled_of_not_isEmpty hempty, play, play, hmore]

end Play

end NativeCodec.Zstd

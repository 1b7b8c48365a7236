import NativeCodec.Native.System
import NativeCodec.Proofs.Operation

set_option autoImplicit false
set_option relaxedAutoImplicit false

namespace NativeCodec.Native

def Regular (w : World Contexts) : Prop :=
  ∀ a, a ≠ Algorithm.snappy → ∀ outcome, (w.bindings a).settled = some outcome →
    outcome = .ok systemConstants

theorem Regular.fresh (m : Memory) : Regular { memory := m, libraries := {} } :=
  fun _ _ _ h => absurd h (by simp)

variable {snappy : Except Error Constants}

theorem answer_system_of_fits {c : Call} (h : c.fits = true) (s : Contexts) :
    (system snappy).answer c s = (.ok (systemReply c s).1, (systemReply c s).2) := by
  simp only [Native.system, h, if_true]

theorem answer_system_of_not_fits {c : Call} (h : c.fits = false) (s : Contexts) :
    (system snappy).answer c s = (.error .tooLarge, s) := by
  simp [Native.system, h]

/-- Binding one of the system's own libraries succeeds, now and later. -/
theorem Op.run_bind_system {a : Algorithm} {w : World Contexts} (ha : a ≠ .snappy)
    (h : Regular w) : ((Op.bind (system snappy) a).run w).1 = .ok systemConstants := by
  cases hs : (w.bindings a).settled with
  | some outcome =>
    rw [run_bind_settled hs, h a ha outcome hs]
    rfl
  | none =>
    obtain ⟨w', hr, -⟩ := run_bind_unsettled (L := system snappy) hs
    rw [hr]
    simp only [Native.system, if_neg ha]

theorem Contexts.lookup_filter (streams : List (Nat × Zstd.Stream)) (handle other : Nat) :
    (streams.filter (·.1 != handle)).lookup other =
      if other = handle then none else streams.lookup other := by
  induction streams with
  | nil => split <;> rfl
  | cons p streams ih =>
    by_cases hp : p.1 = handle
    · rw [List.filter_cons_of_neg (by simp [hp]), ih, List.lookup_cons, hp]
      by_cases ho : other = handle
      · rw [if_pos ho, if_pos ho]
      · rw [if_neg ho, if_neg ho, beq_false_of_ne ho]
    · rw [List.filter_cons_of_pos (by simp [hp]), List.lookup_cons, List.lookup_cons, ih]
      by_cases ho : other = handle
      · rw [if_pos ho, if_pos ho, ho, beq_false_of_ne (Ne.symm hp)]
      · rw [if_neg ho, if_neg ho]

theorem Contexts.stream_free (s : Contexts) (handle other : Nat) :
    (s.free handle).stream other = if other = handle then {} else s.stream other := by
  unfold Contexts.stream Contexts.free
  dsimp only
  rw [lookup_filter]
  split <;> rfl

theorem Contexts.stream_create (s : Contexts) (handle : Nat) :
    s.create.stream handle = if handle = s.created + 1 then {} else s.stream handle :=
  s.stream_free (s.created + 1) handle

theorem Contexts.stream_setStream (s : Contexts) (handle : Nat) (stream : Zstd.Stream) :
    (s.setStream handle stream).stream handle = stream := by
  unfold Contexts.stream Contexts.setStream
  rw [List.lookup_cons, beq_self_eq_true]
  rfl

end NativeCodec.Native

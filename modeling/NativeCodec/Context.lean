import NativeCodec.Error

/-!
Native contexts.

A native library hands out handles that have to be given back once. A `Context` owns one handle.
It gives the handle to its users until it is released, and on its release gives it up to be freed;
a released context has nothing more to free.
-/

set_option autoImplicit false
set_option relaxedAutoImplicit false

namespace NativeCodec

structure Context where
  kind : String
  handle : Nat
  released : Bool := false
  deriving DecidableEq, Repr

namespace Context

def create (kind : String) : Option Nat → Except Error Context
  | none => .error (.contextMissing kind)
  | some handle => .ok { kind, handle }

def use (c : Context) : Except Error Nat :=
  if c.released then .error (.contextReleased c.kind) else .ok c.handle

/-- The handle to be freed, if it is not free yet, and the context after that. -/
def release (c : Context) : Option Nat × Context :=
  if c.released then (none, c) else (some c.handle, { c with released := true })

def describe (c : Context) : String :=
  let state := if c.released then "released" else "live"
  s!"NativeContext<{c.kind}, {state}>"

theorem use_release (c : Context) : c.release.2.use = .error (.contextReleased c.kind) := by
  unfold release use
  split <;> simp_all

theorem release_release (c : Context) : c.release.2.release = (none, c.release.2) := by
  unfold release
  split <;> simp_all

end Context

end NativeCodec

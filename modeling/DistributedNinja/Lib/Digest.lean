import Mathlib.Tactic.Common

namespace DistributedNinja.Lib

/-- A digest that is fed a chunk at a time; its text is never empty. -/
structure Digest where
  Context : Type
  init : Context
  update : Context → List UInt8 → Context
  final : Context → String
  update_nil : ∀ context, update context [] = context
  update_append : ∀ context first second, update (update context first) second = update context (first ++ second)
  final_nonempty : ∀ context, final context ≠ ""

namespace Digest

def of (digest : Digest) (bytes : List UInt8) : String := digest.final (digest.update digest.init bytes)

theorem of_nonempty (digest : Digest) (bytes : List UInt8) : digest.of bytes ≠ "" := digest.final_nonempty _

theorem update_chunks (digest : Digest) (context : digest.Context) (chunks : List (List UInt8)) :
    chunks.foldl digest.update context = digest.update context chunks.flatten := by
  induction chunks generalizing context with
  | nil => exact (digest.update_nil context).symm
  | cons chunk chunks ih => rw [List.foldl_cons, ih, digest.update_append, List.flatten_cons]

theorem final_chunks (digest : Digest) (chunks : List (List UInt8)) :
    digest.final (chunks.foldl digest.update digest.init) = digest.of chunks.flatten := by
  rw [update_chunks, of]

end Digest

end DistributedNinja.Lib

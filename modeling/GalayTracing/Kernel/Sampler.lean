import GalayTracing.Context.TraceContext

/-!
# Samplers

A sampler decides from the parent of a span, if there is one, and from the trace identifier.
-/

namespace GalayTracing

/-- `Sampler::shouldSample`. -/
abbrev Sampler := Option SpanContext → TraceId → Bool

/-- `AlwaysOnSampler`. -/
def AlwaysOnSampler : Sampler := fun _ _ => true

/-- `AlwaysOffSampler`. -/
def AlwaysOffSampler : Sampler := fun _ _ => false

/-- `ParentBasedSampler`: it follows the parent, and asks the root sampler when there is none. -/
def ParentBasedSampler (rootSampler : Option Sampler) : Sampler := fun parent traceId =>
  if parent.any (·.isValid) then parent.any (·.sampled)
  else rootSampler.all fun sampler => sampler none traceId

/-- `builtInSampler`. -/
def builtInSampler : Sampler := ParentBasedSampler (some AlwaysOnSampler)

/-- `currentSampler`: the configured sampler, or the built-in one. -/
def currentSampler (configured : Option Sampler) : Sampler := configured.getD builtInSampler

/-- The configured sampler follows the decision of the parent, whatever its root sampler. -/
def FollowsParent (configured : Option Sampler) : Prop :=
  configured = none ∨ ∃ rootSampler, configured = some (ParentBasedSampler rootSampler)

/-- A sampler that follows the parent samples the children of sampled spans. -/
lemma FollowsParent.currentSampler_eq {configured : Option Sampler} (hf : FollowsParent configured)
    {parent : SpanContext} (hvalid : parent.isValid = true) (traceId : TraceId) :
    currentSampler configured (some parent) traceId = parent.sampled := by
  have hfollows : ∀ rootSampler,
      ParentBasedSampler rootSampler (some parent) traceId = parent.sampled := by
    intro rootSampler
    simp [ParentBasedSampler, hvalid]
  rcases hf with rfl | ⟨rootSampler, rfl⟩
  · exact hfollows _
  · exact hfollows _

end GalayTracing

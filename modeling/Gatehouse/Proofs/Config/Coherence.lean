import Gatehouse.Config.Settings
import Mathlib.Tactic.MkIffOfInductiveProp

/-!
# Coherent settings

`Settings.incoherence?` reports the first thing that is wrong.  Where it reports nothing, each part
of the settings is as it should be.
-/

namespace Gatehouse.Config

/-- What is asked of settings, part by part. -/
@[mk_iff]
structure Settings.Coherent (s : Settings) : Prop where
  address : (Net.SocketAddress.parse? s.server.address).isSome
  metrics : s.telemetry.metrics.enabled →
    (Net.SocketAddress.parse? s.telemetry.metrics.address).isSome
  providers : ∀ name provider, (name, provider) ∈ s.providers → providerFault? provider = none
  rules : ∀ name rules, (name, rules) ∈ s.authorization → rules.hasBlankProperty = false

theorem Settings.incoherence?_eq_none_iff (s : Settings) :
    s.incoherence? = none ↔ s.Coherent := by
  simp [coherent_iff, incoherence?, Option.isSome_iff_ne_none]

end Gatehouse.Config

/-!
# Powers and sums of numbers

Powers and sums of numbers are those of the core library, also where a library of algebra is
imported that finds them as powers and sums of a monoid. So a definition means the same with and
without that library.
-/

namespace KeyedState

attribute [instance (10000), default_instance (20000)] instPowNat

instance (priority := high) instZeroNat : Zero Nat := Zero.ofOfNat0

end KeyedState

/-
UsageLedger/Arithmetic.lean

Powers of whole numbers, and the zero that a sum starts from.  They are those of the
core library in every module, also in those that import the powers and zeros of algebra.
-/

attribute [instance (high), default_instance (high)] instPowNat

attribute [instance (high)] Zero.ofOfNat0

/-!
# Powers of numbers

A bound such as `2 ^ 63` is the same term in every module: powers are those of the core library,
also beside a larger one that has powers of its own.
-/

attribute [instance(20000), default_instance 20000] instPowNat

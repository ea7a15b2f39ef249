/-!
# Powers

A power with a natural exponent is the computed one, also where a library of algebra brings
another instance of it.
-/

attribute [default_instance (20000), instance (20000)] instPowNat

/-!
# Powers

Powers of natural numbers and of integers are those of the core library, also where a module sees
the powers of monoids. So they compute alike in the program and in its theory.
-/

attribute [default_instance 20000] instPowNat

attribute [instance (2000)] instPowNat

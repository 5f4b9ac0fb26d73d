namespace DocQuery

@[default_instance 20000]
instance (priority := high) pow {α : Type} [NatPow α] : Pow α Nat := instPowNat

end DocQuery

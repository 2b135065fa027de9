/-! The bounds of integers of fixed width, as the least naturals beyond them. -/

namespace ClauseRules.Width

def signed64 : Nat := 0x8000000000000000

def unsigned64 : Nat := 0x10000000000000000

def signed128 : Nat := 0x80000000000000000000000000000000

def unsigned128 : Nat := 0x100000000000000000000000000000000

end ClauseRules.Width

/-!
# Pauses

Time is counted in milliseconds.  The clock is set at most thirty years ahead,
so a pause that is meant to last longer is cut short.
-/

namespace DonationFlow.Pause

def longest : Nat := 30 * 365 * 24 * 60 * 60 * 1000

/-- How long a pause lasts that is meant to last this long. -/
def lasting (milliseconds : Nat) : Nat := min milliseconds longest

/-- The pause between two turns of a loop, which takes some time. -/
def between (milliseconds : Nat) : Nat := max 1 (lasting milliseconds)

end DonationFlow.Pause

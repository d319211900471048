import Refearn.Schema
/-!
# The environment

What the program takes from outside the repository: calendar months in a time
zone, once from `Intl.DateTimeFormat` and once from SQL, the hash functions, and
full Unicode lower case.
-/

namespace Refearn

structure Env where
  monthKey : Instant → String → String
  /-- `to_char(… AT TIME ZONE …, 'YYYY-MM')` -/
  toCharMonth : Instant → String → String
  sha256 : String → String
  md5 : String → String
  toLowerCase : String → String

/-- Milliseconds of a day. -/
def DAY_MS : Int := 86400000

end Refearn

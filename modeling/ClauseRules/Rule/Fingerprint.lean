import ClauseRules.Digest.Sha256
import ClauseRules.Rule.Bytes

/-! Fingerprints of rule sets. Equal sets have equal fingerprints. -/

namespace ClauseRules

def RuleSet.fingerprint (rules : RuleSet) : String := (Sha256.digest rules.bytes).text

end ClauseRules

import QuadStore.Rdf.Term
import QuadStore.Store.Encoded
import QuadStore.Text.Utf8

/-!
# Corruption

What can be wrong with a journal or with the state of a store, and how it is reported. Entries of
the index are reported by the numbers of their terms.
-/

namespace QuadStore

/-- What is wrong. -/
inductive Corruption where
  | notAJournal
  | futureVersion (version : Nat)
  | invalidVersion (version : Nat)
  | unknownOperation (code : Nat)
  | unknownTermKind (code : Nat)
  | invalidBoolean (byte : Nat)
  | truncatedRecord
  | unreadBytes (count : Nat)
  | defaultGraphAsTerm
  | invalidText (fault : Utf8.Fault)
  | wrongKind (error : ConversionError)
  | oldRecord (record current : Nat)
  | removalOfAbsent (quad : Quad)
  | unknownTerm (id : TermId)
  | literalGraph (id : TermId)
  | listedTwice (quad : EncodedQuad)
  | removedBeforeAdded (quad : EncodedQuad) (till since : Nat)
  | missingFromIndex (quad : EncodedQuad) (role : Role)
  | emptyList (role : Role) (id : TermId)
  | unknownEntry (role : Role)
  | wrongCount (role : Role) (count expected : Nat)
  | staged (quad : EncodedQuad)
  | notLive (quad : EncodedQuad)
  | liveCount (live visible : Nat)
deriving DecidableEq, Repr

/-- What the report says. -/
def Corruption.message : Corruption → String
  | notAJournal => "The file is not an oxstore log"
  | futureVersion v => "The log format version " ++ toString v ++
      " is not supported, the latest supported version is 1"
  | invalidVersion v => "Invalid log format version " ++ toString v
  | unknownOperation code => "Unknown log operation " ++ toString code
  | unknownTermKind code => "Unknown term type " ++ toString code
  | invalidBoolean byte => "Invalid boolean byte " ++ toString byte
  | truncatedRecord => "Unexpected end of a log record"
  | unreadBytes count => toString count ++ " unexpected bytes at the end of a log record"
  | defaultGraphAsTerm => "Unexpected default graph in a quad term"
  | invalidText fault => fault.message
  | wrongKind error => error.message
  | oldRecord record current => "The log record of snapshot " ++ toString record ++
      " follows snapshot " ++ toString current
  | removalOfAbsent quad => "The log removes " ++ quad.text ++ " that is not in the store"
  | unknownTerm id => "The term " ++ id.text ++ " is not in the dictionary"
  | literalGraph id => "The graph name " ++ id.text ++ " is a literal"
  | listedTwice quad => "The entry " ++ quad.text ++ " is listed twice"
  | removedBeforeAdded quad till since => "The entry " ++ quad.text ++ " is removed at " ++
      toString till ++ " before being added at " ++ toString since
  | missingFromIndex quad role => "The entry " ++ quad.text ++ " is missing from the " ++
      role.name ++ " index"
  | emptyList role id => "The " ++ role.name ++ " index contains an empty list for " ++ id.text
  | unknownEntry role => "The " ++ role.name ++ " index contains an unknown entry"
  | wrongCount role count expected => "The " ++ role.name ++ " index has " ++ toString count ++
      " entries instead of " ++ toString expected
  | staged quad => "The entry " ++ quad.text ++ " is still staged outside of a transaction"
  | notLive quad => "The visible entry " ++ quad.text ++ " is not the live one"
  | liveCount live visible => toString live ++ " live quads but " ++ toString visible ++
      " visible entries"

end QuadStore

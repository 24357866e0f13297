/-!
# Vocabularies

The IRIs of the datatypes with a meaning of their own.
-/

namespace QuadStore

namespace Rdf

/-- The datatype of the literals with a language. -/
def langString : String := "http://www.w3.org/1999/02/22-rdf-syntax-ns#langString"

end Rdf

namespace Xsd

/-- The namespace of the XML Schema datatypes. -/
def base : String := "http://www.w3.org/2001/XMLSchema#"

/-- The datatype of the simple literals. -/
def string : String := "http://www.w3.org/2001/XMLSchema#string"

def boolean : String := "http://www.w3.org/2001/XMLSchema#boolean"
def decimal : String := "http://www.w3.org/2001/XMLSchema#decimal"
def float : String := "http://www.w3.org/2001/XMLSchema#float"
def double : String := "http://www.w3.org/2001/XMLSchema#double"
def date : String := "http://www.w3.org/2001/XMLSchema#date"
def time : String := "http://www.w3.org/2001/XMLSchema#time"
def dateTime : String := "http://www.w3.org/2001/XMLSchema#dateTime"
def dateTimeStamp : String := "http://www.w3.org/2001/XMLSchema#dateTimeStamp"
def gYear : String := "http://www.w3.org/2001/XMLSchema#gYear"
def gYearMonth : String := "http://www.w3.org/2001/XMLSchema#gYearMonth"
def gMonth : String := "http://www.w3.org/2001/XMLSchema#gMonth"
def gMonthDay : String := "http://www.w3.org/2001/XMLSchema#gMonthDay"
def gDay : String := "http://www.w3.org/2001/XMLSchema#gDay"
def integer : String := "http://www.w3.org/2001/XMLSchema#integer"
def byte : String := "http://www.w3.org/2001/XMLSchema#byte"
def short : String := "http://www.w3.org/2001/XMLSchema#short"
def int : String := "http://www.w3.org/2001/XMLSchema#int"
def long : String := "http://www.w3.org/2001/XMLSchema#long"
def unsignedByte : String := "http://www.w3.org/2001/XMLSchema#unsignedByte"
def unsignedShort : String := "http://www.w3.org/2001/XMLSchema#unsignedShort"
def unsignedInt : String := "http://www.w3.org/2001/XMLSchema#unsignedInt"
def unsignedLong : String := "http://www.w3.org/2001/XMLSchema#unsignedLong"
def positiveInteger : String := "http://www.w3.org/2001/XMLSchema#positiveInteger"
def negativeInteger : String := "http://www.w3.org/2001/XMLSchema#negativeInteger"
def nonPositiveInteger : String := "http://www.w3.org/2001/XMLSchema#nonPositiveInteger"
def nonNegativeInteger : String := "http://www.w3.org/2001/XMLSchema#nonNegativeInteger"

/-- The datatypes whose values are whole numbers. -/
def integerTypes : List String :=
  [integer, byte, short, int, long, unsignedByte, unsignedShort, unsignedInt, unsignedLong,
   positiveInteger, negativeInteger, nonPositiveInteger, nonNegativeInteger]

/-- The datatypes whose values are numbers. -/
def numericTypes : List String := decimal :: float :: double :: integerTypes

/-- The datatypes whose values are points or parts of the calendar. -/
def calendarTypes : List String :=
  [dateTime, dateTimeStamp, date, time, gYear, gYearMonth, gMonth, gMonthDay, gDay]

end Xsd
end QuadStore

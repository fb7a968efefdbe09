/-!
# File identifiers and the identifier of the application
-/

namespace TravelDocument

/-- The two bytes by which a file is selected. -/
abbrev FileIdentifier := UInt16

namespace FileIdentifier

/-- EF.CardAccess in the master file. -/
def cardAccess : FileIdentifier := 0x011C

/-- EF.COM in the application. -/
def common : FileIdentifier := 0x011E

/-- EF.SOD in the application. -/
def security : FileIdentifier := 0x011D

def dataGroup (number : UInt8) : FileIdentifier := 0x0100 ||| number.toUInt16

end FileIdentifier

/-- The identifier of the travel document application. -/
def applicationIdentifier : List UInt8 := [0xA0, 0x00, 0x00, 0x02, 0x47, 0x10, 0x01]

end TravelDocument

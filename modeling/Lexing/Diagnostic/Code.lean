/-!
# Codes

Every diagnostic that can be told apart has a code. Events that need none carry a general code of their level.
-/

namespace Lexing.Code

def internalError : String := "ERR001"
def startupFailure : String := "ERR002"
def fileNotFound : String := "E005"
def fileTooLarge : String := "E007"
def emptyFile : String := "E008"
def permissionDenied : String := "E009"
def invalidEncoding : String := "E010"
def ioError : String := "E011"
def invalidPath : String := "E012"
def tooManyLines : String := "E013"
def tokenTooLong : String := "E020"
def tooManyTokens : String := "E021"
def sinkFailed : String := "E022"
def signalToken : String := "W020"
def writeFailed : String := "E030"
def settingsUnreadable : String := "E040"
def settingsMalformed : String := "E041"
def runFailed : String := "E050"
def startupComplete : String := "I004"
def fileComplete : String := "I006"
def analysisComplete : String := "I020"
def outputComplete : String := "I030"
def runComplete : String := "I050"

/-- The code of a warning that has none of its own. -/
def plainWarning : String := "W000"

/-- The code of an informational event that has none of its own. -/
def plainInfo : String := "I000"

/-- The code of a debugging event. -/
def plainDebug : String := "D000"

end Lexing.Code

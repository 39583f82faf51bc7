import Downlevel.ScopedImport.Basic
import Downlevel.Script.Property

/-!
# Fallback values

What stands for a value of the platform when no test provides one, as an expression.
-/

namespace Downlevel.ScopedImport

open Script (stringLiteral)

/-- A function that does nothing and says so later. -/
def laterNothing : String := "function () \x7b return Promise.resolve(); \x7d"

/-- The value of a locale property. -/
def localeDefaults : List (String × String) :=
  [("lang", "\"en-US\""),
    ("dir", "\"ltr\""),
    ("locale", "\"en-US\""),
    ("currency", "\"USD\""),
    ("firstDayOfWeek", "1"),
    ("timeZone", "\"America/Los_Angeles\""),
    ("showJapaneseCalendar", "false"),
    ("defaultCalendar", "\"gregorian\""),
    ("defaultNumberingSystem", "\"latn\""),
    ("calendarData", "\x7b\x7d"),
    ("common.calendarData", "\x7b\x7d"),
    ("common.digits", "\"0123456789\""),
    ("number.currencySymbol", "\"$\""),
    ("number.decimalSeparator", "\".\""),
    ("number.groupingSeparator", "\",\""),
    ("number.numberFormat", "\"#,##0.###\""),
    ("number.percentFormat", "\"#,##0%\""),
    ("number.currencyFormat", "\"¤#,##0.00;(¤#,##0.00)\""),
    ("dateTime.shortDateFormat", "\"M/d/yyyy\""),
    ("dateTime.mediumDateFormat", "\"MMM d, yyyy\""),
    ("dateTime.longDateFormat", "\"MMMM d, yyyy\""),
    ("dateTime.shortTimeFormat", "\"h:mm a\""),
    ("dateTime.mediumTimeFormat", "\"h:mm:ss a\""),
    ("dateTime.shortDateTimeFormat", "\"M/d/yyyy h:mm a\""),
    ("dateTime.mediumDateTimeFormat", "\"MMM d, yyyy h:mm:ss a\"")]

/-- The description of an object, or of a field of it behind the first point. -/
def schemaDescription (resource : String) : String :=
  let (object, field) := resource.toList.span (· != '.')
  let objectText := "objectApiName: " ++ stringLiteral (String.ofList object)
  match field with
  | [] => "\x7b " ++ objectText ++ " \x7d"
  | _ :: field =>
    "\x7b " ++ objectText ++ ", fieldApiName: " ++ stringLiteral (String.ofList field) ++ " \x7d"

/-- The value that stands for what a module of a kind provides. -/
def fallback : ScopedImport → String → String
  | label, resource | resourceUrl, resource | contentAssetUrl, resource
  | messageChannel, resource => stringLiteral resource
  | schema, resource => schemaDescription resource
  | i18n, resource => (localeDefaults.lookup resource).getD "undefined"
  | user, resource =>
    if resource = "Id" then stringLiteral "005000000000000000"
    else if resource = "isGuest" then "false"
    else "undefined"
  | client, resource => if resource = "formFactor" then stringLiteral "Large" else "undefined"
  | apex, _ | apexContinuation, _ => laterNothing
  | accessCheck, _ => "true"
  | customPermission, _ | userPermission, _ | site, _ => "undefined"

/-- The value that stands for a helper for server methods, if there is such a helper. -/
def helperFallback? (name : String) : Option String :=
  if name = "refreshApex" then some laterNothing
  else if name = "getSObjectValue" then some "jest.fn()"
  else none

end Downlevel.ScopedImport

import DraftDesk.Calendar
import DraftDesk.CookieHeader

/-!
# The consent notice

Visitors are told once which cookies are stored; a cookie of its own keeps that they were told.
-/

namespace DraftDesk

/-- A cookie to be stored until a moment. -/
structure SetCookie where
  name : String
  value : String
  expires : Moment
  deriving DecidableEq, Repr

namespace SetCookie

/-- A cookie that expires some days from now. -/
def lasting (name value : String) (days : Int) (now : Moment) : SetCookie :=
  ⟨name, value, now.addDays days⟩

/-- The cookie as the value of a header, with the text of its last moment. -/
def headerWith (date : String) (c : SetCookie) : String :=
  c.name ++ "=" ++ c.value ++ ";expires=" ++ date ++ ";path=/;SameSite=Strict"

/-- The cookie as the value of a header. -/
def header (c : SetCookie) : String := c.headerWith c.expires.httpDate

end SetCookie

/-- What to show, and the cookie that keeps that it was shown. -/
structure Notice where
  message : String
  cookie : SetCookie
  deriving DecidableEq, Repr

/-- The settings of the notice. -/
structure ConsentNotice where
  cookie : String
  days : Int
  message : String
  deriving DecidableEq, Repr

namespace ConsentNotice

instance : Inhabited ConsentNotice where
  default := {
    cookie := "cookies_notice"
    days := 365
    message :=
      "Diese Webseite verwendet Cookies für Ihre Sprachauswahl, Login Daten und " ++
      "Cookie-Einstellungen.\nMit der Benutzung der Website erklären Sie sich einverstanden " ++
      "mit der Speicherung der Cookies in Ihrem Browser." }

/-- The notice, if the cookies of a visitor do not show that it was seen. -/
def check (settings : ConsentNotice) (header : String) (now : Moment) : Option Notice :=
  if CookieHeader.get header settings.cookie = "" then
    some ⟨settings.message, .lasting settings.cookie "1" settings.days now⟩
  else none

end ConsentNotice

end DraftDesk

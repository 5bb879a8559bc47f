import Moonshine.Framework.Decimal
import Moonshine.Impl.AppScanner.Scan
import Moonshine.Impl.Session.Rtsp

/-!
# The documents of the webserver, `webserver/mod.rs`

The text of the list of applications and of an error, as the server puts them together, and
the application that `/launch` finds for an ID.
-/

namespace Moonshine.Impl.Webserver

open Moonshine.Framework Moonshine.Impl.AppScanner Moonshine.Impl.Rtsp

def escapeXml (input : List Char) : List Char :=
  let input := replace input "&" "&amp;"
  let input := replace input "<" "&lt;"
  let input := replace input ">" "&gt;"
  let input := replace input "\"" "&quot;"
  replace input "'" "&apos;"

/-- What `app_list` writes for one application. -/
def appEntry (hash : String → UInt64) (hdrSupported : Bool) (application : ApplicationConfig) : List Char :=
  "<App>".toList ++
    ("<IsHdrSupported>".toList ++ decimal (if hdrSupported then 1 else 0) ++ "</IsHdrSupported>".toList) ++
    ("<AppTitle>".toList ++ escapeXml application.title.toList ++ "</AppTitle>".toList) ++
    ("<ID>".toList ++ decimal (application.id hash).toInt ++ "</ID>".toList) ++
    "</App>".toList

/-- `app_list`, the body. -/
def appList (hash : String → UInt64) (hdrSupported : Bool) (applications : List ApplicationConfig) : List Char :=
  "<root status_code=\"200\">".toList ++ applications.flatMap (appEntry hash hdrSupported) ++ "</root>".toList

/-- `xml_error`, the body. -/
def xmlError (statusCode : UInt16) (message : List Char) : List Char :=
  "<root status_code=\"".toList ++ decimal statusCode.toNat ++ "\" status_message=\"".toList ++
    escapeXml message ++ "\"></root>".toList

/-- The application that `launch` and `app_asset` find. -/
def findApplication (hash : String → UInt64) (applications : List ApplicationConfig) (applicationId : Int32) :
    Option ApplicationConfig :=
  applications.find? fun a => a.id hash = applicationId

end Moonshine.Impl.Webserver

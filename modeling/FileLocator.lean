import FileLocator.Percent.Lemmas
import FileLocator.Proofs.Url.Breaks
import FileLocator.Session
import FileLocator.Proofs.Escapes
import FileLocator.Proofs.Respelling
import FileLocator.Proofs.Url.BrokenDrive
import FileLocator.Proofs.Url.Solid
import FileLocator.Proofs.Url.Host
import FileLocator.Proofs.Url.Punycode
import FileLocator.Proofs.Url.Body
import FileLocator.Proofs.Url.Href
import FileLocator.Proofs.Locator.Reading
import FileLocator.Proofs.Locator.Decoding
import FileLocator.Proofs.Locator.Platforms
import FileLocator.Proofs.Locator.Share
import FileLocator.Proofs.Locator.Root
import FileLocator.Proofs.Path
import FileLocator.Proofs.Locator.Encoding
import FileLocator.Proofs.Locator.RoundTrip
import FileLocator.Proofs.Locator.PathAlgebra
import FileLocator.Proofs.Locator.Canonical
import FileLocator.Proofs.Locator.Edits
import FileLocator.Proofs.Locator.Query
import FileLocator.Proofs.Locator.Signs
import FileLocator.Proofs.Locator.Faults
import FileLocator.Proofs.Locator.Slashes
import FileLocator.Proofs.Url.Announced
import FileLocator.Proofs.Url.Blanks
import FileLocator.Proofs.Url.Again
import FileLocator.Proofs.Locator.Rereading
import FileLocator.Proofs.Locator.ParentOfExtend
import FileLocator.Proofs.Locator.Extension
import FileLocator.Proofs.Locator.Assembly
import FileLocator.Proofs.Locator.ParentText

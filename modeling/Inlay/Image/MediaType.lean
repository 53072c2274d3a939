import Inlay.Path.Basic
import Inlay.Text.Lowercase

/-!
# Media types of images

The media type of an image is that of its suffix in lower case; for `svg` it has a name of its own.
-/

namespace Inlay.Image

/-- The media type of the image that a reference names. -/
def mediaType (reference : Text) : Text :=
  let extension := Text.lower ((Path.ofText reference).suffix.drop 1)
  if extension = "svg".toList then "image/svg+xml".toList
  else "image/".toList ++ extension

end Inlay.Image

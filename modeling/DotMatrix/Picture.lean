/-! Pixels as a file of red, green and blue bytes. -/
namespace DotMatrix.Picture

def rgbBytes (pixel : UInt32) : List UInt8 :=
  [(pixel >>> 16).toUInt8, (pixel >>> 8).toUInt8, pixel.toUInt8]

def rgb24 (pixels : Array UInt32) : ByteArray :=
  pixels.foldl (fun out pixel => (rgbBytes pixel).foldl ByteArray.push out) ByteArray.empty

end DotMatrix.Picture
